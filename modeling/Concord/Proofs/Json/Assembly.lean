import Concord.Proofs.Json.Lexing
import Concord.Proofs.Json.Tree

/-!
# Reading written JSON back

A value is written as the lexemes `Value.lexemes`, with blanks between them.

* `Document.read_of_writes` — what is read of such a text is a node that stands for the value, with
  the members of objects in their order (`Node.ordered?`).  `Document.Holds` says so of a text.
* `Node.value_of_ordered` — such a node is decoded to the value with its members sorted, if lists
  and objects do not lie in too many others.
* `Node.value_of_depth_lt` — it is turned down if they do.
-/

set_option autoImplicit false

namespace Concord.Json

/-! ## Values as they are written -/

namespace Value

mutual

/-- The lexemes of a value. -/
def lexemes : Value → List Lexeme
  | null => [.null]
  | bool b => [.bool b]
  | number n => [.number n]
  | string s => [.string s]
  | list items => .listStart :: (itemLexemes items ++ [.listEnd])
  | object members => .objectStart :: (memberLexemes members ++ [.objectEnd])

/-- The lexemes of values with commas between them. -/
def itemLexemes : List Value → List Lexeme
  | [] => []
  | [v] => lexemes v
  | v :: w :: vs => lexemes v ++ .comma :: itemLexemes (w :: vs)

/-- The lexemes of members with commas between them. -/
def memberLexemes : List (String × Value) → List Lexeme
  | [] => []
  | [(k, v)] => .string k :: .colon :: lexemes v
  | (k, v) :: m :: ms => .string k :: .colon :: (lexemes v ++ .comma :: memberLexemes (m :: ms))

end

mutual

/-- Whether all numbers of the value are read as they are written. -/
def isExact : Value → Bool
  | number n => n.isExact
  | list items => itemsExact items
  | object members => membersExact members
  | _ => true

/-- Whether all values are read as they are written. -/
def itemsExact : List Value → Bool
  | [] => true
  | v :: vs => isExact v && itemsExact vs

/-- Whether the values of all members are read as they are written. -/
def membersExact : List (String × Value) → Bool
  | [] => true
  | (_, v) :: ms => isExact v && membersExact ms

end

mutual

/-- How many lists and objects lie in one another. -/
def depth : Value → Nat
  | list items => itemsDepth items + 1
  | object members => membersDepth members + 1
  | _ => 0

/-- The greatest depth among values. -/
def itemsDepth : List Value → Nat
  | [] => 0
  | v :: vs => max (depth v) (itemsDepth vs)

/-- The greatest depth among members. -/
def membersDepth : List (String × Value) → Nat
  | [] => 0
  | (_, v) :: ms => max (depth v) (membersDepth ms)

end

mutual

/-- The value with the members of its objects sorted by their keys, where of repeated keys the last
one counts. -/
def sorted : Value → Value
  | list items => .list (sortedItems items)
  | object members => .object (sortedMembers [] members)
  | v => v

/-- Sorts the members of objects within values. -/
def sortedItems : List Value → List Value
  | [] => []
  | v :: vs => sorted v :: sortedItems vs

/-- Sorts members among those that are sorted already. -/
def sortedMembers (before : List (String × Value)) :
    List (String × Value) → List (String × Value)
  | [] => before
  | (k, v) :: ms => sortedMembers (putMember k (sorted v) before) ms

end

theorem membersExact_iff {ms : List (String × Value)} :
    membersExact ms = true ↔ ∀ m ∈ ms, m.2.isExact = true := by
  induction ms with
  | nil => simp [membersExact]
  | cons m ms ih => simp only [membersExact, Bool.and_eq_true, ih, List.forall_mem_cons]

theorem lookup_cons_eq_ite {α : Type} (k key : String) (v : α) (ms : List (String × α)) :
    ((key, v) :: ms).lookup k = if k = key then some v else ms.lookup k := by
  rw [List.lookup_cons]
  by_cases hk : k = key
  · simp [hk]
  · simp [hk, beq_false_of_ne hk]

/-- A function that is written out at keys. -/
theorem lookup_map_pair {α : Type} (f : String → α) {keys : List String} {k : String}
    (h : k ∈ keys) : (keys.map fun key ↦ (key, f key)).lookup k = some (f k) := by
  induction keys with
  | nil => contradiction
  | cons key keys ih =>
    rw [List.map_cons, lookup_cons_eq_ite]
    by_cases hk : k = key
    · rw [if_pos hk, hk]
    · rw [if_neg hk, ih ((List.mem_cons.mp h).resolve_left hk)]

/-- What is found under a key does not depend on where its member is put. -/
theorem lookup_putMember (key k : String) (v : Value) (ms : List (String × Value)) :
    (putMember key v ms).lookup k = if k = key then some v else ms.lookup k := by
  induction ms with
  | nil => rw [putMember, lookup_cons_eq_ite]
  | cons m ms ih =>
    obtain ⟨k', w⟩ := m
    rw [putMember]
    by_cases hlt : k' < key
    · have hne : k' ≠ key := by
        rintro rfl
        exact String.lt_irrefl _ hlt
      rw [if_pos hlt, lookup_cons_eq_ite, lookup_cons_eq_ite, ih]
      by_cases hk : k = k'
      · rw [if_pos hk, if_neg (hk ▸ hne), if_pos hk]
      · rw [if_neg hk, if_neg hk]
    · rw [if_neg hlt]
      by_cases heq : k' = key
      · rw [if_pos heq, lookup_cons_eq_ite, lookup_cons_eq_ite, heq]
        by_cases hk : k = key
        · rw [if_pos hk, if_pos hk]
        · rw [if_neg hk, if_neg hk, if_neg hk]
      · rw [if_neg heq, lookup_cons_eq_ite]

mutual

/-- The lexemes of a value are read as they are written if its numbers are. -/
theorem isExact_of_mem_lexemes : ∀ (v : Value), v.isExact = true → ∀ l ∈ v.lexemes, l.isExact = true
  | .null, _ => by simp [lexemes, Lexeme.isExact]
  | .bool b, _ => by simp [lexemes, Lexeme.isExact]
  | .number n, h => by
    rw [isExact] at h
    simp [lexemes, Lexeme.isExact, h]
  | .string s, _ => by simp [lexemes, Lexeme.isExact]
  | .list vs, h => by
    rw [isExact] at h
    have hitems := isExact_of_mem_itemLexemes vs h
    intro l hl
    rw [lexemes, List.mem_cons, List.mem_append, List.mem_singleton] at hl
    rcases hl with rfl | hl | rfl
    · rfl
    · exact hitems l hl
    · rfl
  | .object es, h => by
    rw [isExact] at h
    have hmembers := isExact_of_mem_memberLexemes es h
    intro l hl
    rw [lexemes, List.mem_cons, List.mem_append, List.mem_singleton] at hl
    rcases hl with rfl | hl | rfl
    · rfl
    · exact hmembers l hl
    · rfl

theorem isExact_of_mem_itemLexemes : ∀ (vs : List Value), itemsExact vs = true →
    ∀ l ∈ itemLexemes vs, l.isExact = true
  | [], _ => by simp [itemLexemes]
  | [v], h => by
    rw [itemsExact, Bool.and_eq_true] at h
    rw [itemLexemes]
    exact isExact_of_mem_lexemes v h.1
  | v :: w :: vs, h => by
    rw [itemsExact, Bool.and_eq_true] at h
    have hv := isExact_of_mem_lexemes v h.1
    have hvs := isExact_of_mem_itemLexemes (w :: vs) h.2
    intro l hl
    rw [itemLexemes, List.mem_append, List.mem_cons] at hl
    rcases hl with hl | rfl | hl
    · exact hv l hl
    · rfl
    · exact hvs l hl

theorem isExact_of_mem_memberLexemes : ∀ (es : List (String × Value)), membersExact es = true →
    ∀ l ∈ memberLexemes es, l.isExact = true
  | [], _ => by simp [memberLexemes]
  | [(k, v)], h => by
    rw [membersExact, Bool.and_eq_true] at h
    have hv := isExact_of_mem_lexemes v h.1
    intro l hl
    rw [memberLexemes, List.mem_cons, List.mem_cons] at hl
    rcases hl with rfl | rfl | hl
    · rfl
    · rfl
    · exact hv l hl
  | (k, v) :: e :: es, h => by
    rw [membersExact, Bool.and_eq_true] at h
    have hv := isExact_of_mem_lexemes v h.1
    have hes := isExact_of_mem_memberLexemes (e :: es) h.2
    intro l hl
    rw [memberLexemes, List.mem_cons, List.mem_cons, List.mem_append, List.mem_cons] at hl
    rcases hl with rfl | rfl | hl | rfl | hl
    · rfl
    · rfl
    · exact hv l hl
    · rfl
    · exact hes l hl

end

/-- A value does not begin with the end of a list. -/
theorem exists_lexemes_eq_cons (v : Value) :
    ∃ l ls, v.lexemes = l :: ls ∧ l.token ≠ .listEnd := by
  cases v <;> exact ⟨_, _, rfl, by simp [Lexeme.token]⟩

end Value

/-! ## The printer -/

namespace Value

section Printer

variable {ls : List Lexeme} {rest : List Char}

/-- A lexeme is written in front of others. -/
theorem writes_cons {l : Lexeme} {text : List Char} (hl : l.text = text)
    (hnext : ∀ c ∈ rest.head?, l.absorbs c = false) (h : spelling.Writes ls rest) :
    spelling.Writes (l :: ls) (text ++ rest) := by
  rw [← hl]
  exact .cons hnext h

/-- A mark is written in front of others. -/
theorem writes_mark {l : Lexeme} {c : Char} (hl : l.text = [c])
    (habsorbs : ∀ d, l.absorbs d = false) (h : spelling.Writes ls rest) :
    spelling.Writes (l :: ls) (c :: rest) :=
  writes_cons hl (fun d _ ↦ habsorbs d) h

/-- A key and a colon are written in front of a value. -/
theorem writes_key {k : String} (h : spelling.Writes ls rest) :
    spelling.Writes (.string k :: .colon :: ls) ((writeString k).toList ++ ':' :: rest) := by
  have htext : (Lexeme.string k).text = (writeString k).toList := by rw [Lexeme.text]
  exact writes_cons htext (fun _ _ ↦ rfl) (writes_mark rfl (fun _ ↦ rfl) h)

end Printer

mutual

/-- **A value is printed as it is written**, here with no blanks at all. -/
theorem writes_compact : ∀ (v : Value) {ls : List Lexeme} {rest : List Char},
    spelling.Writes ls rest → (∀ c ∈ rest.head?, continuesNumber c = false) →
      spelling.Writes (v.lexemes ++ ls) (v.compact.toList ++ rest)
  | .null, _, _, h, _ => by
    have htext : Lexeme.null.text = (compact .null).toList := by simp [compact, Lexeme.text]
    rw [lexemes, List.singleton_append]
    exact writes_cons htext (fun _ _ ↦ rfl) h
  | .bool b, _, _, h, _ => by
    have htext : (Lexeme.bool b).text = (compact (.bool b)).toList := by
      cases b <;> simp [compact, Lexeme.text]
    rw [lexemes, List.singleton_append]
    exact writes_cons htext (fun _ _ ↦ rfl) h
  | .number n, _, _, h, hrest => by
    have htext : (Lexeme.number n).text = (compact (.number n)).toList := by
      rw [compact, Lexeme.text]
    rw [lexemes, List.singleton_append]
    exact writes_cons htext hrest h
  | .string s, _, _, h, _ => by
    have htext : (Lexeme.string s).text = (compact (.string s)).toList := by
      rw [compact, Lexeme.text]
    rw [lexemes, List.singleton_append]
    exact writes_cons htext (fun _ _ ↦ rfl) h
  | .list vs, ls, rest, h, _ => by
    have htext : (compact (.list vs)).toList ++ rest =
        '[' :: ((compactItems vs).toList ++ (']' :: rest)) := by
      simp [compact]
    have hend : spelling.Writes (.listEnd :: ls) (']' :: rest) := writes_mark rfl (fun _ ↦ rfl) h
    rw [htext, lexemes, List.cons_append, List.append_assoc]
    exact writes_mark rfl (fun _ ↦ rfl) (writes_compactItems vs hend (by simp [continuesNumber]))
  | .object es, ls, rest, h, _ => by
    have htext : (compact (.object es)).toList ++ rest =
        '\x7b' :: ((compactMembers es).toList ++ ('\x7d' :: rest)) := by
      simp [compact]
    have hend : spelling.Writes (.objectEnd :: ls) ('\x7d' :: rest) :=
      writes_mark rfl (fun _ ↦ rfl) h
    rw [htext, lexemes, List.cons_append, List.append_assoc]
    exact writes_mark rfl (fun _ ↦ rfl) (writes_compactMembers es hend (by simp [continuesNumber]))

theorem writes_compactItems : ∀ (vs : List Value) {ls : List Lexeme} {rest : List Char},
    spelling.Writes ls rest → (∀ c ∈ rest.head?, continuesNumber c = false) →
      spelling.Writes (itemLexemes vs ++ ls) ((compactItems vs).toList ++ rest)
  | [], _, _, h, _ => by
    simpa [itemLexemes, compactItems] using h
  | [v], _, _, h, hrest => by
    rw [itemLexemes, compactItems]
    exact writes_compact v h hrest
  | v :: w :: vs, ls, rest, h, hrest => by
    have htext : (compactItems (v :: w :: vs)).toList ++ rest =
        v.compact.toList ++ (',' :: ((compactItems (w :: vs)).toList ++ rest)) := by
      simp [compactItems]
    have hcomma :=
      writes_mark (l := .comma) rfl (fun _ ↦ rfl) (writes_compactItems (w :: vs) h hrest)
    rw [htext, itemLexemes, List.append_assoc, List.cons_append]
    exact writes_compact v hcomma (by simp [continuesNumber])

theorem writes_compactMembers : ∀ (es : List (String × Value)) {ls : List Lexeme}
    {rest : List Char}, spelling.Writes ls rest → (∀ c ∈ rest.head?, continuesNumber c = false) →
      spelling.Writes (memberLexemes es ++ ls) ((compactMembers es).toList ++ rest)
  | [], _, _, h, _ => by
    simpa [memberLexemes, compactMembers] using h
  | [(k, v)], ls, rest, h, hrest => by
    have htext : (compactMembers [(k, v)]).toList ++ rest =
        (writeString k).toList ++ ':' :: (v.compact.toList ++ rest) := by
      simp [compactMembers]
    rw [htext, memberLexemes]
    exact writes_key (writes_compact v h hrest)
  | (k, v) :: e :: es, ls, rest, h, hrest => by
    have htext : (compactMembers ((k, v) :: e :: es)).toList ++ rest =
        (writeString k).toList ++ ':' :: (v.compact.toList ++
          (',' :: ((compactMembers (e :: es)).toList ++ rest))) := by
      simp [compactMembers]
    have hcomma :=
      writes_mark (l := .comma) rfl (fun _ ↦ rfl) (writes_compactMembers (e :: es) h hrest)
    rw [htext, memberLexemes, List.cons_append, List.cons_append, List.append_assoc,
      List.cons_append]
    exact writes_key (writes_compact v hcomma (by simp [continuesNumber]))

end

end Value

/-! ## Nodes that stand for values -/

namespace Node

mutual

/-- The value that a node stands for, with its members in the order of the text. -/
def ordered? : Node → Option Value
  | scalar s _ => s.value.toOption
  | list _ items (.closed _) => (orderedItems? items).map .list
  | object _ members (.closed _) => (orderedMembers? members).map .object
  | _ => none

/-- The values that the nodes of a list stand for. -/
def orderedItems? : List Node → Option (List Value)
  | [] => some []
  | n :: ns => do return (← ordered? n) :: (← orderedItems? ns)

/-- The members that the nodes of an object stand for. -/
def orderedMembers? : List (Key × Node) → Option (List (String × Value))
  | [] => some []
  | (key, n) :: ms => do return (← key.text.toOption, ← ordered? n) :: (← orderedMembers? ms)

end

end Node

/-! ## The machine -/

namespace Machine

/-- Reads tokens one after the other. -/
def steps (m : Machine) (ps : List Placed) : Machine := ps.foldl step m

theorem steps_append (m : Machine) (ps qs : List Placed) :
    m.steps (ps ++ qs) = (m.steps ps).steps qs := List.foldl_append

theorem steps_cons (m : Machine) (p : Placed) (ps : List Placed) :
    m.steps (p :: ps) = (m.step p).steps ps := rfl

/-- The lexemes are read as a value that the machine wants. -/
def ReadsValue (v : Value) : Prop :=
  ∀ ps : List Placed, ps.map Placed.token = v.lexemes.map Lexeme.token → ∀ outer,
    ∃ n : Node, n.ordered? = some v ∧ (value outer).steps ps = put n outer

theorem readsValue_scalar {v : Value} {l : Lexeme} {s : Scalar} (h : v.lexemes = [l])
    (hl : l.token = .scalar s) (hs : s.value = .ok v) : ReadsValue v := by
  intro ps hps outer
  rw [h] at hps
  obtain ⟨p, ps, rfl, hp, hrest⟩ := List.map_eq_cons_iff.mp hps
  obtain rfl := List.map_eq_nil_iff.mp hrest
  refine ⟨.scalar s p.stop, by rw [Node.ordered?, hs]; rfl, ?_⟩
  rw [steps_cons, step, enter, hp, hl]
  rfl

/-- Where a value begins, a machine that also takes the end of a list does as one that does not. -/
theorem steps_eq_of_begins {m m' : Machine} (hstep : ∀ p, p.token ≠ .listEnd → m.step p = m'.step p)
    {ps : List Placed} {v : Value} {ls : List Lexeme}
    (hps : ps.map Placed.token = (v.lexemes ++ ls).map Lexeme.token) :
    m.steps ps = m'.steps ps := by
  obtain ⟨l, ls', hl, hne⟩ := v.exists_lexemes_eq_cons
  rw [hl] at hps
  obtain ⟨p, ps, rfl, hp, -⟩ := List.map_eq_cons_iff.mp hps
  rw [steps_cons, steps_cons, hstep p (by rw [hp]; exact hne)]

theorem step_firstItem {p : Placed} (hp : p.token ≠ .listEnd) (start : Nat) (outer : List Frame) :
    (firstItem start outer).step p = (value (.list start [] :: outer)).step p := by
  rw [step, step]
  split
  · rename_i hend
    exact absurd hend hp
  · rfl

theorem step_nextItem {p : Placed} (hp : p.token ≠ .listEnd) (start : Nat) (items : List Node)
    (outer : List Frame) :
    (nextItem start items outer).step p = (value (.list start items :: outer)).step p := by
  rw [step, step]
  split
  · rename_i hend
    exact absurd hend hp
  · rfl

theorem exists_itemLexemes_eq (v : Value) (vs : List Value) :
    ∃ ls, Value.itemLexemes (v :: vs) = v.lexemes ++ ls := by
  cases vs with
  | nil => exact ⟨[], by rw [Value.itemLexemes, List.append_nil]⟩
  | cons w vs => exact ⟨_, by rw [Value.itemLexemes]⟩

/-- The values of a list are read one after the other. -/
theorem steps_items {v : Value} {vs : List Value} (h : ∀ u ∈ v :: vs, ReadsValue u)
    {ps : List Placed}
    (hps : ps.map Placed.token = (Value.itemLexemes (v :: vs)).map Lexeme.token) (start : Nat)
    (items : List Node) (outer : List Frame) :
    ∃ ns, Node.orderedItems? ns = some (v :: vs) ∧
      (value (.list start items :: outer)).steps ps =
        itemEnd start (ns.reverse ++ items) outer := by
  induction vs generalizing v ps items with
  | nil =>
    obtain ⟨n, hn, hsteps⟩ := h v List.mem_cons_self ps hps (.list start items :: outer)
    exact ⟨[n], by simp [Node.orderedItems?, hn], hsteps⟩
  | cons w vs ih =>
    obtain ⟨hv, h⟩ := List.forall_mem_cons.mp h
    rw [Value.itemLexemes, List.map_append] at hps
    obtain ⟨ps₁, qs, rfl, hps₁, hqs⟩ := List.map_eq_append_iff.mp hps
    obtain ⟨comma, ps₂, rfl, hcomma, hps₂⟩ := List.map_eq_cons_iff.mp hqs
    obtain ⟨n, hn, hsteps⟩ := hv ps₁ hps₁ (.list start items :: outer)
    obtain ⟨ns, hns, hsteps'⟩ := ih h hps₂ (n :: items)
    obtain ⟨ls, hls⟩ := exists_itemLexemes_eq w vs
    rw [hls] at hps₂
    refine ⟨n :: ns, by simp [Node.orderedItems?, hn, hns], ?_⟩
    have hstep : (itemEnd start (n :: items) outer).step comma =
        nextItem start (n :: items) outer := by
      rw [step, hcomma]
      rfl
    rw [steps_append, hsteps, put, steps_cons, hstep,
      steps_eq_of_begins (fun p hp ↦ step_nextItem hp _ _ _) hps₂, hsteps']
    simp

/-- What stands between two brackets. -/
theorem exists_between {ps : List Placed} {first last : Lexeme} {ls : List Lexeme}
    (hps : ps.map Placed.token = (first :: (ls ++ [last])).map Lexeme.token) :
    ∃ p qs q, ps = p :: (qs ++ [q]) ∧ p.token = first.token ∧
      qs.map Placed.token = ls.map Lexeme.token ∧ q.token = last.token := by
  obtain ⟨p, ps', rfl, hp, hps'⟩ := List.map_eq_cons_iff.mp hps
  rw [List.map_append] at hps'
  obtain ⟨qs, ps'', rfl, hqs, hps''⟩ := List.map_eq_append_iff.mp hps'
  obtain ⟨q, rest, rfl, hq, hrest⟩ := List.map_eq_cons_iff.mp hps''
  obtain rfl := List.map_eq_nil_iff.mp hrest
  exact ⟨p, qs, q, rfl, hp, hqs, hq⟩

theorem readsValue_list {vs : List Value} (h : ∀ v ∈ vs, ReadsValue v) :
    ReadsValue (.list vs) := by
  intro ps hps outer
  obtain ⟨first, qs, last, rfl, hfirst, hqs, hlast⟩ := exists_between hps
  have hopen : (value outer).step first = firstItem first.start outer := by
    rw [step, enter, hfirst]
    rfl
  rw [steps_cons, hopen, steps_append]
  cases vs with
  | nil =>
    obtain rfl := List.map_eq_nil_iff.mp hqs
    refine ⟨.list first.start [] (.closed last.stop), rfl, ?_⟩
    show (firstItem first.start outer).step last = _
    rw [step, hlast]
    rfl
  | cons v vs =>
    obtain ⟨ns, hns, hsteps⟩ := steps_items h hqs first.start [] outer
    obtain ⟨ls, hls⟩ := exists_itemLexemes_eq v vs
    rw [hls] at hqs
    refine ⟨.list first.start ns (.closed last.stop), by rw [Node.ordered?, hns]; rfl, ?_⟩
    rw [steps_eq_of_begins (fun p hp ↦ step_firstItem hp _ _) hqs, hsteps, List.append_nil]
    show (itemEnd first.start ns.reverse outer).step last = _
    rw [step, hlast]
    show closeList first.start last.stop ns.reverse outer = _
    rw [closeList, List.reverse_reverse]

/-- A key and a colon are read in front of a value. -/
theorem steps_key {m : Machine} {start : Nat} {members : List (Key × Node)} {outer : List Frame}
    (hm : ∀ p text, p.token = .scalar (.string text) → m.step p = colon start members text outer)
    {k : String} {ls : List Lexeme} {ps : List Placed}
    (hps : ps.map Placed.token = (.string k :: .colon :: ls).map Lexeme.token) :
    ∃ key qs, key.text = .ok k ∧ qs.map Placed.token = ls.map Lexeme.token ∧
      m.steps ps = (value (.object start members key :: outer)).steps qs := by
  obtain ⟨p, ps', rfl, hp, hps'⟩ := List.map_eq_cons_iff.mp hps
  obtain ⟨q, qs, rfl, hq, hqs⟩ := List.map_eq_cons_iff.mp hps'
  refine ⟨⟨.ok k, q.start⟩, qs, rfl, hqs, ?_⟩
  rw [steps_cons, hm p _ hp, steps_cons, step, hq]
  rfl

theorem step_firstKey {p : Placed} {text : Except Fault String}
    (hp : p.token = .scalar (.string text)) (start : Nat) (outer : List Frame) :
    (firstKey start outer).step p = colon start [] text outer := by
  rw [step, hp]
  show enterKey p .keyNotString start [] outer = _
  rw [enterKey, hp]

theorem step_nextKey {p : Placed} {text : Except Fault String}
    (hp : p.token = .scalar (.string text)) (start : Nat) (members : List (Key × Node))
    (outer : List Frame) :
    (nextKey start members outer).step p = colon start members text outer := by
  rw [step, hp]
  show enterKey p .keyNotString start members outer = _
  rw [enterKey, hp]

/-- The members of an object are read one after the other. -/
theorem steps_members {e : String × Value} {es : List (String × Value)}
    (h : ∀ e' ∈ e :: es, ReadsValue e'.2) {m : Machine} {start : Nat}
    {members : List (Key × Node)} {outer : List Frame}
    (hm : ∀ p text, p.token = .scalar (.string text) → m.step p = colon start members text outer)
    {ps : List Placed}
    (hps : ps.map Placed.token = (Value.memberLexemes (e :: es)).map Lexeme.token) :
    ∃ ms, Node.orderedMembers? ms = some (e :: es) ∧
      m.steps ps = memberEnd start (ms.reverse ++ members) outer := by
  induction es generalizing e m ps members with
  | nil =>
    obtain ⟨k, v⟩ := e
    obtain ⟨key, qs, hkey, hqs, hsteps⟩ := steps_key hm hps
    obtain ⟨n, hn, hvalue⟩ :=
      h (k, v) List.mem_cons_self qs hqs (.object start members key :: outer)
    refine ⟨[(key, n)], by simp [Node.orderedMembers?, hn, hkey, Except.toOption], ?_⟩
    rw [hsteps, hvalue]
    rfl
  | cons e' es ih =>
    obtain ⟨k, v⟩ := e
    obtain ⟨hv, h⟩ := List.forall_mem_cons.mp h
    rw [Value.memberLexemes] at hps
    obtain ⟨key, qs, hkey, hqs, hsteps⟩ := steps_key hm hps
    rw [List.map_append] at hqs
    obtain ⟨rs, rs', rfl, hrs, hrs'⟩ := List.map_eq_append_iff.mp hqs
    obtain ⟨comma, ps', rfl, hcomma, hps'⟩ := List.map_eq_cons_iff.mp hrs'
    obtain ⟨n, hn, hvalue⟩ := hv rs hrs (.object start members key :: outer)
    obtain ⟨ms, hms, hrest⟩ := ih h (fun p text hp ↦ step_nextKey hp start _ outer) hps'
    refine ⟨(key, n) :: ms, by simp [Node.orderedMembers?, hn, hms, hkey, Except.toOption], ?_⟩
    have hstep : (memberEnd start ((key, n) :: members) outer).step comma =
        nextKey start ((key, n) :: members) outer := by
      rw [step, hcomma]
      rfl
    rw [hsteps, steps_append, hvalue, put, steps_cons, hstep, hrest]
    simp

theorem readsValue_object {es : List (String × Value)} (h : ∀ e ∈ es, ReadsValue e.2) :
    ReadsValue (.object es) := by
  intro ps hps outer
  obtain ⟨first, qs, last, rfl, hfirst, hqs, hlast⟩ := exists_between hps
  have hopen : (value outer).step first = firstKey first.start outer := by
    rw [step, enter, hfirst]
    rfl
  rw [steps_cons, hopen, steps_append]
  cases es with
  | nil =>
    obtain rfl := List.map_eq_nil_iff.mp hqs
    refine ⟨.object first.start [] (.closed last.stop), rfl, ?_⟩
    show (firstKey first.start outer).step last = _
    rw [step, hlast]
    rfl
  | cons e es =>
    obtain ⟨ms, hms, hsteps⟩ := steps_members h (fun p text hp ↦ step_firstKey hp _ _) hqs
    refine ⟨.object first.start ms (.closed last.stop), by rw [Node.ordered?, hms]; rfl, ?_⟩
    rw [hsteps, List.append_nil]
    show (memberEnd first.start ms.reverse outer).step last = _
    rw [step, hlast]
    show closeObject first.start last.stop ms.reverse outer = _
    rw [closeObject, List.reverse_reverse]

mutual

/-- **The lexemes of a value are read as the value.** -/
theorem readsValue : ∀ v : Value, ReadsValue v
  | .null => readsValue_scalar (l := .null) (by rw [Value.lexemes]) rfl rfl
  | .bool b => readsValue_scalar (l := .bool b) (by rw [Value.lexemes]) rfl rfl
  | .number n => readsValue_scalar (l := .number n) (by rw [Value.lexemes]) rfl rfl
  | .string s => readsValue_scalar (l := .string s) (by rw [Value.lexemes]) rfl rfl
  | .list vs => readsValue_list (readsItems vs)
  | .object es => readsValue_object (readsMembers es)

theorem readsItems : ∀ vs : List Value, ∀ v ∈ vs, ReadsValue v
  | [] => by simp
  | v :: vs => List.forall_mem_cons.mpr ⟨readsValue v, readsItems vs⟩

theorem readsMembers : ∀ es : List (String × Value), ∀ e ∈ es, ReadsValue e.2
  | [] => by simp
  | (_, v) :: es => List.forall_mem_cons.mpr ⟨readsValue v, readsMembers es⟩

end

end Machine

/-- **A value that is written is read as a node that stands for it.** -/
theorem Document.read_of_writes {v : Value} {source : String}
    (h : spelling.Writes v.lexemes source.toList) (hexact : v.isExact = true) :
    ∃ n : Node, n.ordered? = some v ∧ Document.read source = ⟨n, none⟩ := by
  obtain ⟨n, hn, hsteps⟩ := Machine.readsValue v (tokenize source)
    (tokensFrom_of_writes h (v.isExact_of_mem_lexemes hexact) _ _) []
  refine ⟨n, hn, ?_⟩
  show ((Machine.value []).steps (tokenize source)).document _ = _
  rw [hsteps]
  rfl

/-- A text holds a value, and nothing behind it.  Members stand in the order of the text. -/
structure Document.Holds (d : Document) (tree : Value) : Prop where
  root : d.root.ordered? = some tree
  trailing : d.trailing = none

/-- What is printed of a value holds it. -/
theorem Document.holds_compact {tree : Value} (h : tree.isExact = true) :
    (Document.read tree.compact).Holds tree := by
  have hwrites : spelling.Writes tree.lexemes tree.compact.toList := by
    simpa using Value.writes_compact tree .nil (by simp)
  obtain ⟨n, hn, hread⟩ := Document.read_of_writes hwrites h
  rw [hread]
  exact ⟨hn, rfl⟩

/-! ## Decoding -/

/-- A scalar stands for no list and for no object. -/
theorem Scalar.value_ne {s : Scalar} {v : Value} (h : s.value = .ok v) :
    (∀ vs, v ≠ .list vs) ∧ ∀ es, v ≠ .object es := by
  cases s with
  | null => cases h; simp
  | bool b => cases h; simp
  | number n => cases n <;> cases h; simp
  | string text => cases text <;> cases h; simp

namespace Node

/-- There is nothing to sort in a scalar. -/
theorem value_scalar {s : Scalar} {stop room : Nat} {v : Value}
    (h : (scalar s stop).ordered? = some v) : (scalar s stop).value room = .ok v.sorted := by
  rw [ordered?] at h
  rw [value]
  cases s with
  | null => cases h; rfl
  | bool b => cases h; rfl
  | number n => cases n <;> cases h; rfl
  | string text => cases text <;> cases h; rfl

theorem depth_scalar {s : Scalar} {stop : Nat} {v : Value}
    (h : (scalar s stop).ordered? = some v) : v.depth = 0 := by
  rw [ordered?] at h
  cases s with
  | null => cases h; rfl
  | bool b => cases h; rfl
  | number n => cases n <;> cases h; rfl
  | string text => cases text <;> cases h; rfl

section Ordered

variable {v : Value}

theorem exists_of_ordered_list {start : Nat} {items : List Node} {finish : Finish}
    (h : (list start items finish).ordered? = some v) :
    ∃ vs stop, orderedItems? items = some vs ∧ v = .list vs ∧ finish = .closed stop := by
  cases finish with
  | closed stop =>
    rw [ordered?] at h
    obtain ⟨vs, hvs, rfl⟩ := Option.map_eq_some_iff.mp h
    exact ⟨vs, stop, hvs, rfl, rfl⟩
  | broken b => simp [ordered?] at h

theorem exists_of_ordered_object {start : Nat} {members : List (Key × Node)} {finish : Finish}
    (h : (object start members finish).ordered? = some v) :
    ∃ es stop, orderedMembers? members = some es ∧ v = .object es ∧ finish = .closed stop := by
  cases finish with
  | closed stop =>
    rw [ordered?] at h
    obtain ⟨es, hes, rfl⟩ := Option.map_eq_some_iff.mp h
    exact ⟨es, stop, hes, rfl, rfl⟩
  | broken b => simp [ordered?] at h

/-- A node that stands for a value is a scalar, a list or an object. -/
theorem ordered_cases {n : Node} (h : n.ordered? = some v) :
    (∃ s stop, n = scalar s stop ∧ s.value = .ok v) ∨
      (∃ start items stop vs, n = list start items (.closed stop) ∧
        orderedItems? items = some vs ∧ v = .list vs) ∨
      ∃ start members stop es, n = object start members (.closed stop) ∧
        orderedMembers? members = some es ∧ v = .object es := by
  cases n with
  | scalar s stop => exact .inl ⟨s, stop, rfl, eq_ok_of_toOption h⟩
  | list start items finish =>
    obtain ⟨vs, stop, hvs, rfl, rfl⟩ := exists_of_ordered_list h
    exact .inr (.inl ⟨start, items, stop, vs, rfl, hvs, rfl⟩)
  | object start members finish =>
    obtain ⟨es, stop, hes, rfl, rfl⟩ := exists_of_ordered_object h
    exact .inr (.inr ⟨start, members, stop, es, rfl, hes, rfl⟩)
  | broken b => simp [ordered?] at h

/-- A node that stands for an object is one. -/
theorem eq_object_of_ordered {n : Node} {es : List (String × Value)}
    (h : n.ordered? = some (.object es)) :
    ∃ start members stop, n = object start members (.closed stop) ∧
      orderedMembers? members = some es := by
  rcases ordered_cases h with ⟨s, stop, rfl, hs⟩ | ⟨start, items, stop, vs, rfl, -, heq⟩ |
    ⟨start, members, stop, es', rfl, hes, heq⟩
  · exact absurd rfl ((Scalar.value_ne hs).2 es)
  · contradiction
  · cases heq
    exact ⟨start, members, stop, rfl, hes⟩

/-- A node that stands for a string has its text. -/
theorem optionalText_of_ordered {n : Node} {text : String} (h : n.ordered? = some (.string text)) :
    n.optionalText = .ok (some text) := by
  rcases ordered_cases h with ⟨s, stop, rfl, hs⟩ | ⟨start, items, stop, vs, rfl, -, heq⟩ |
    ⟨start, members, stop, es, rfl, -, heq⟩
  · cases s with
    | null => cases hs
    | bool b => cases hs
    | number n => cases n <;> cases hs
    | string text => cases text <;> cases hs; rfl
  · contradiction
  · contradiction

theorem exists_of_orderedItems_cons {n : Node} {ns : List Node} {vs : List Value}
    (h : orderedItems? (n :: ns) = some vs) :
    ∃ w ws, n.ordered? = some w ∧ orderedItems? ns = some ws ∧ vs = w :: ws := by
  rw [orderedItems?] at h
  obtain ⟨w, hw, h⟩ := Option.bind_eq_some_iff.mp h
  obtain ⟨ws, hws, h⟩ := Option.bind_eq_some_iff.mp h
  exact ⟨w, ws, hw, hws, (Option.some.inj h).symm⟩

theorem exists_of_orderedMembers_cons {key : Key} {n : Node} {ms : List (Key × Node)}
    {es : List (String × Value)} (h : orderedMembers? ((key, n) :: ms) = some es) :
    ∃ k w es', key.text = .ok k ∧ n.ordered? = some w ∧ orderedMembers? ms = some es' ∧
      es = (k, w) :: es' := by
  rw [orderedMembers?] at h
  obtain ⟨k, hk, h⟩ := Option.bind_eq_some_iff.mp h
  obtain ⟨w, hw, h⟩ := Option.bind_eq_some_iff.mp h
  obtain ⟨es', hes, h⟩ := Option.bind_eq_some_iff.mp h
  exact ⟨k, w, es', eq_ok_of_toOption hk, hw, hes, (Option.some.inj h).symm⟩

theorem exists_of_orderedMembers_eq_cons {ms : List (Key × Node)} {e : String × Value}
    {es : List (String × Value)} (h : orderedMembers? ms = some (e :: es)) :
    ∃ key n ms', ms = (key, n) :: ms' ∧ key.text = .ok e.1 ∧ n.ordered? = some e.2 ∧
      orderedMembers? ms' = some es := by
  cases ms with
  | nil => cases h
  | cons m ms =>
    obtain ⟨k, w, es', hk, hw, hes, heq⟩ := exists_of_orderedMembers_cons h
    cases heq
    exact ⟨m.1, m.2, ms, rfl, hk, hw, hes⟩

theorem eq_nil_of_orderedMembers {ms : List (Key × Node)} (h : orderedMembers? ms = some []) :
    ms = [] := by
  cases ms with
  | nil => rfl
  | cons m ms =>
    obtain ⟨k, w, es', -, -, -, heq⟩ := exists_of_orderedMembers_cons h
    cases heq

theorem skip_of_ordered {n : Node} (h : n.ordered? = some v) :
    n.skip = .ok () := by
  rcases ordered_cases h with ⟨s, stop, rfl, -⟩ | ⟨start, items, stop, vs, rfl, -⟩ |
    ⟨start, members, stop, es, rfl, -⟩ <;> rfl

end Ordered

section Decode

variable {room : Nat} (ih : ∀ {n : Node} {v : Value}, n.ordered? = some v → v.depth ≤ room →
  n.value room = .ok v.sorted)
include ih

theorem values_of_ordered {ns : List Node} {vs : List Value} (h : orderedItems? ns = some vs)
    (hdepth : Value.itemsDepth vs ≤ room) : values room ns = .ok (Value.sortedItems vs) := by
  induction ns generalizing vs with
  | nil =>
    cases h
    rfl
  | cons n ns ihns =>
    obtain ⟨w, ws, hw, hws, rfl⟩ := exists_of_orderedItems_cons h
    rw [Value.itemsDepth, Nat.max_le] at hdepth
    rw [values, ih hw hdepth.1, ihns hws hdepth.2, Value.sortedItems]
    rfl

theorem memberValues_of_ordered {before : List (String × Value)} {ms : List (Key × Node)}
    {es : List (String × Value)} (h : orderedMembers? ms = some es)
    (hdepth : Value.membersDepth es ≤ room) :
    memberValues room before ms = .ok (Value.sortedMembers before es) := by
  induction ms generalizing before es with
  | nil =>
    cases h
    rfl
  | cons m ms ihms =>
    obtain ⟨key, n⟩ := m
    obtain ⟨k, w, es', hk, hw, hes, rfl⟩ := exists_of_orderedMembers_cons h
    rw [Value.membersDepth, Nat.max_le] at hdepth
    rw [memberValues, hk, ih hw hdepth.1, Value.sortedMembers, ← ihms hes hdepth.2]
    rfl

end Decode

theorem value_list {room start stop : Nat} {items : List Node} {vs : List Value}
    (h : values room items = .ok vs) :
    (list start items (.closed stop)).value (room + 1) = .ok (.list vs) := by
  rw [value, goInto_succ]
  simp [bind, Except.bind, h, Finish.check, pure, Except.pure]

theorem value_object {room start stop : Nat} {members : List (Key × Node)}
    {es : List (String × Value)} (h : memberValues room [] members = .ok es) :
    (object start members (.closed stop)).value (room + 1) = .ok (.object es) := by
  rw [value, goInto_succ]
  simp [bind, Except.bind, h, Finish.check, pure, Except.pure]

/-- **A node is decoded to the value that it stands for**, with its members sorted, as far as lists
and objects do not lie in too many others. -/
theorem value_of_ordered {room : Nat} {n : Node} {v : Value} (h : n.ordered? = some v)
    (hdepth : v.depth ≤ room) : n.value room = .ok v.sorted := by
  induction room generalizing n v with
  | zero =>
    cases n with
    | scalar s stop => exact value_scalar h
    | list start items finish =>
      obtain ⟨vs, stop, -, rfl, -⟩ := exists_of_ordered_list h
      simp [Value.depth] at hdepth
    | object start members finish =>
      obtain ⟨es, stop, -, rfl, -⟩ := exists_of_ordered_object h
      simp [Value.depth] at hdepth
    | broken b => simp [ordered?] at h
  | succ room ih =>
    cases n with
    | scalar s stop => exact value_scalar h
    | list start items finish =>
      obtain ⟨vs, stop, hvs, rfl, rfl⟩ := exists_of_ordered_list h
      rw [Value.depth, Nat.add_le_add_iff_right] at hdepth
      rw [Value.sorted, value_list (values_of_ordered ih hvs hdepth)]
    | object start members finish =>
      obtain ⟨es, stop, hes, rfl, rfl⟩ := exists_of_ordered_object h
      rw [Value.depth, Nat.add_le_add_iff_right] at hdepth
      rw [Value.sorted, value_object (memberValues_of_ordered ih hes hdepth)]
    | broken b => simp [ordered?] at h

section TooDeep

variable {room : Nat} (ih : ∀ {n : Node} {v : Value}, n.ordered? = some v → room < v.depth →
  ∃ stop, n.value room = .error ⟨.tooDeep, stop⟩)
include ih

theorem values_of_depth_lt {ns : List Node} {vs : List Value} (h : orderedItems? ns = some vs)
    (hdepth : room < Value.itemsDepth vs) :
    ∃ stop, values room ns = .error ⟨.tooDeep, stop⟩ := by
  induction ns generalizing vs with
  | nil =>
    cases h
    simp [Value.itemsDepth] at hdepth
  | cons n ns ihns =>
    obtain ⟨w, ws, hw, hws, rfl⟩ := exists_of_orderedItems_cons h
    by_cases hfirst : room < w.depth
    · obtain ⟨stop, hstop⟩ := ih hw hfirst
      exact ⟨stop, by rw [values, hstop]; rfl⟩
    · rw [Value.itemsDepth] at hdepth
      obtain ⟨stop, hstop⟩ := ihns hws (by omega)
      exact ⟨stop, by rw [values, value_of_ordered hw (by omega), hstop]; rfl⟩

theorem memberValues_of_depth_lt (before : List (String × Value)) {ms : List (Key × Node)}
    {es : List (String × Value)} (h : orderedMembers? ms = some es)
    (hdepth : room < Value.membersDepth es) :
    ∃ stop, memberValues room before ms = .error ⟨.tooDeep, stop⟩ := by
  induction ms generalizing before es with
  | nil =>
    cases h
    simp [Value.membersDepth] at hdepth
  | cons m ms ihms =>
    obtain ⟨key, n⟩ := m
    obtain ⟨k, w, es', hk, hw, hes, rfl⟩ := exists_of_orderedMembers_cons h
    by_cases hfirst : room < w.depth
    · obtain ⟨stop, hstop⟩ := ih hw hfirst
      exact ⟨stop, by rw [memberValues, hk, hstop]; rfl⟩
    · rw [Value.membersDepth] at hdepth
      obtain ⟨stop, hstop⟩ := ihms (Value.putMember k w.sorted before) hes (by omega)
      exact ⟨stop, by rw [memberValues, hk, value_of_ordered hw (by omega), ← hstop]; rfl⟩

end TooDeep

/-- **A node is turned down** if lists and objects lie in too many others. -/
theorem value_of_depth_lt {room : Nat} {n : Node} {v : Value} (h : n.ordered? = some v)
    (hdepth : room < v.depth) : ∃ stop, n.value room = .error ⟨.tooDeep, stop⟩ := by
  induction room generalizing n v with
  | zero =>
    cases n with
    | scalar s stop => simp [depth_scalar h] at hdepth
    | list start items finish => exact ⟨start + 1, by rw [value]; rfl⟩
    | object start members finish => exact ⟨start + 1, by rw [value]; rfl⟩
    | broken b => simp [ordered?] at h
  | succ room ih =>
    cases n with
    | scalar s stop => simp [depth_scalar h] at hdepth
    | list start items finish =>
      obtain ⟨vs, stop, hvs, rfl, rfl⟩ := exists_of_ordered_list h
      rw [Value.depth, Nat.add_lt_add_iff_right] at hdepth
      obtain ⟨stop, hstop⟩ := values_of_depth_lt ih hvs hdepth
      exact ⟨stop, by rw [value, goInto_succ]; simp [bind, Except.bind, hstop]⟩
    | object start members finish =>
      obtain ⟨es, stop, hes, rfl, rfl⟩ := exists_of_ordered_object h
      rw [Value.depth, Nat.add_lt_add_iff_right] at hdepth
      obtain ⟨stop, hstop⟩ := memberValues_of_depth_lt ih [] hes hdepth
      exact ⟨stop, by rw [value, goInto_succ]; simp [bind, Except.bind, hstop]⟩
    | broken b => simp [ordered?] at h

end Node

end Concord.Json
