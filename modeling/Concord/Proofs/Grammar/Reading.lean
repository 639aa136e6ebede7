import Concord.Proofs.Grammar.Document
import Concord.Proofs.Grammar.Walk

/-!
# Which documents are grammars, and what they declare and use

Of the members of a document only four count.  `IsGrammar` says what must stand there, and `walked`
which values are searched for symbols.

The reader is followed one member at a time: `Sets` says what its members make of a document,
`setMembers_iff` that the reader comes to it, and `isGrammar_iff` that it can for grammars only.
`Grammar.ofJson_members` says what this comes to for whole texts, together with the names that the
walk over the values finds.
-/

set_option autoImplicit false

namespace Concord

open Json (Document Fault Finish Key Node Value)
open Json.Node (orderedMembers?)
open Json.Value (lastAt? lastAt?_concat lastAt?_eq_none_iff lastAt?_of_count_le_one
  lookup_cons_eq_ite mem_of_lastAt? sortedItems sortedItems_eq)

namespace GrammarDocument

/-! ## The bodies of rules -/

theorem map_fst_putBody (name : String) (body : Value) (rules : List (String × Value)) :
    (putBody name body rules).map Prod.fst =
      if name ∈ rules.map Prod.fst then rules.map Prod.fst else rules.map Prod.fst ++ [name] := by
  induction rules with
  | nil => simp [putBody]
  | cons r rs ih =>
    obtain ⟨n, b⟩ := r
    rw [putBody]
    by_cases hn : n = name
    · simp [hn]
    · rw [if_neg hn, List.map_cons, ih, List.map_cons]
      simp only [List.mem_cons, Ne.symm hn, false_or]
      split <;> rfl

theorem lookup_putBody (name k : String) (body : Value) (rules : List (String × Value)) :
    (putBody name body rules).lookup k = if k = name then some body else rules.lookup k := by
  induction rules with
  | nil => rw [putBody, lookup_cons_eq_ite]
  | cons r rs ih =>
    obtain ⟨n, b⟩ := r
    rw [putBody]
    by_cases hn : n = name
    · rw [if_pos hn, lookup_cons_eq_ite, lookup_cons_eq_ite, hn]
      split <;> rfl
    · rw [if_neg hn, lookup_cons_eq_ite, lookup_cons_eq_ite, ih]
      by_cases hk : k = n
      · rw [if_pos hk, if_neg (hk ▸ hn), if_pos hk]
      · rw [if_neg hk, if_neg hk]

variable (es : List (String × Value))

/-- The names of the rules stand in the order in which they first occur. -/
theorem map_fst_putBodies : (putBodies [] es).map Prod.fst = (es.map Prod.fst).eraseDups := by
  induction es using List.reverseRecOn with
  | nil => rfl
  | append_singleton es e ih =>
    rw [putBodies, List.foldl_concat, ← putBodies, map_fst_putBody, ih, List.map_append,
      List.map_singleton, eraseDups_concat]
    simp only [List.mem_eraseDups]

/-- Each rule has its last body. -/
theorem lookup_putBodies (k : String) :
    (putBodies [] es).lookup k = (lastAt? k es).map Value.sorted := by
  induction es using List.reverseRecOn with
  | nil => rfl
  | append_singleton es e ih =>
    rw [putBodies, List.foldl_concat, ← putBodies, lookup_putBody, ih, lastAt?_concat]
    split <;> rfl

/-- The last bodies of the rules. -/
def lastBodies : List Value := (es.map Prod.fst).eraseDups.filterMap fun k ↦ lastAt? k es

theorem map_snd_eq_filterMap_lookup {rules : List (String × Value)}
    (h : (rules.map Prod.fst).Nodup) :
    rules.map Prod.snd = (rules.map Prod.fst).filterMap fun k ↦ rules.lookup k := by
  induction rules with
  | nil => rfl
  | cons r rs ih =>
    obtain ⟨hfirst, hrest⟩ := List.nodup_cons.mp h
    have hcongr : (rs.map Prod.fst).filterMap (fun k ↦ (r :: rs).lookup k) =
        (rs.map Prod.fst).filterMap fun k ↦ rs.lookup k := by
      refine List.filterMap_congr fun k hk ↦ ?_
      have hne : k ≠ r.1 := fun heq ↦ hfirst (heq ▸ hk)
      rw [lookup_cons_eq_ite, if_neg hne]
    rw [List.map_cons, List.map_cons, List.filterMap_cons, lookup_cons_eq_ite, if_pos rfl, hcongr,
      ih hrest]

theorem map_snd_putBodies : (putBodies [] es).map Prod.snd = sortedItems (lastBodies es) := by
  have hnodup : ((putBodies [] es).map Prod.fst).Nodup := by
    rw [map_fst_putBodies]
    exact nodup_eraseDups _
  rw [map_snd_eq_filterMap_lookup hnodup, map_fst_putBodies, sortedItems_eq, lastBodies,
    List.map_filterMap]
  exact List.filterMap_congr fun k _ ↦ lookup_putBodies es k

/-! ## Fields -/

namespace Field

/-- The key of the field. -/
def label : Field → String
  | name => "name"
  | rules => "rules"
  | extras => "extras"
  | externals => "externals"

theorem ofName?_eq_some_iff {k : String} {field : Field} :
    ofName? k = some field ↔ k = field.label := by
  constructor
  · intro h
    unfold ofName? at h
    split at h <;> cases h <;> rfl
  · rintro rfl
    cases field <;> rfl

theorem label_injective {field other : Field} (h : field.label = other.label) : field = other :=
  Option.some.inj ((ofName?_eq_some_iff.mpr rfl).symm.trans (ofName?_eq_some_iff.mpr h))

/-- What is read of a field. -/
def Content : Field → Type
  | name => Option String
  | rules => List (String × Value)
  | extras | externals => List Value

end Field

/-- A name may be left out as `null`. -/
def nameOf? : Value → Option (Option String)
  | .null => some none
  | .string s => some (some s)
  | _ => none

/-- Rules are the members of an object. -/
def rulesOf? : Value → Option (List (String × Value))
  | .object members => some (putBodies [] members)
  | _ => none

/-- Tokens are the items of a list. -/
def tokensOf? : Value → Option (List Value)
  | .list items => some (sortedItems items)
  | _ => none

theorem exists_of_tokensOf? {v : Value} {tokens : List Value} (h : tokensOf? v = some tokens) :
    ∃ items, v = .list items := by
  cases v with
  | list items => exact ⟨items, rfl⟩
  | _ => contradiction

/-- What a value comes to in a field, if it may stand there. -/
def Field.content? : (field : Field) → Value → Option field.Content
  | name => nameOf?
  | rules => rulesOf?
  | extras | externals => tokensOf?

/-- What a document has in a field. -/
def get (d : GrammarDocument) : (field : Field) → field.Content
  | .name => d.name
  | .rules => d.rules
  | .extras => d.extras
  | .externals => d.externals

/-- A document with another content of a field. -/
def put (d : GrammarDocument) : (field : Field) → field.Content → GrammarDocument
  | .name, c => { d with name := c }
  | .rules, c => { d with rules := c }
  | .extras, c => { d with extras := c }
  | .externals, c => { d with externals := c }

theorem get_put (d : GrammarDocument) (field : Field) (c : field.Content) :
    (d.put field c).get field = c := by
  cases field <;> rfl

theorem get_put_of_ne (d : GrammarDocument) {field other : Field} (h : other ≠ field)
    (c : field.Content) : (d.put field c).get other = d.get other := by
  cases field <;> cases other <;> first | rfl | exact absurd rfl h

theorem ext_get {d d' : GrammarDocument} (h : ∀ field, d.get field = d'.get field) : d = d' := by
  cases d
  cases d'
  obtain rfl := h .name
  obtain rfl := h .rules
  obtain rfl := h .extras
  obtain rfl := h .externals
  rfl

section SetField

variable {room : Nat} {n : Node} {v : Value}

/-- A scalar is neither rules nor tokens. -/
theorem of_scalar {s : Json.Scalar} (hs : s.value = .ok v) :
    rulesOf? v = none ∧ tokensOf? v = none := by
  obtain ⟨hlist, hobject⟩ := Json.Scalar.value_ne hs
  cases v with
  | list vs => exact absurd rfl (hlist vs)
  | object es => exact absurd rfl (hobject es)
  | _ => exact ⟨rfl, rfl⟩

theorem toOption_optionalText (h : n.ordered? = some v) :
    n.optionalText.toOption = nameOf? v := by
  rcases Node.ordered_cases h with ⟨s, stop, rfl, hs⟩ | ⟨start, items, stop, vs, rfl, -, rfl⟩ |
    ⟨start, members, stop, es, rfl, -, rfl⟩
  · cases s with
    | null => cases hs; rfl
    | bool b => cases hs; rfl
    | number n => cases n <;> cases hs; rfl
    | string text => cases text <;> cases hs; rfl
  · rfl
  · rfl

theorem toOption_rulesOfNode (h : n.ordered? = some v) (hdepth : v.depth ≤ room) :
    (rulesOfNode room n).toOption = rulesOf? v := by
  rcases Node.ordered_cases h with ⟨s, stop, rfl, hs⟩ | ⟨start, items, stop, vs, rfl, -, rfl⟩ |
    ⟨start, members, stop, es, rfl, -, rfl⟩
  · rw [(of_scalar hs).1]
    rfl
  · rfl
  · cases room with
    | zero => simp [Value.depth] at hdepth
    | succ room =>
      rw [Value.depth, Nat.add_le_add_iff_right] at hdepth
      rw [rulesOfNode_of_ordered h hdepth]
      rfl

theorem toOption_tokensOfNode (h : n.ordered? = some v) (hdepth : v.depth ≤ room) :
    (tokensOfNode room n).toOption = tokensOf? v := by
  rcases Node.ordered_cases h with ⟨s, stop, rfl, hs⟩ | ⟨start, items, stop, vs, rfl, hvs, rfl⟩ |
    ⟨start, members, stop, es, rfl, -, rfl⟩
  · rw [(of_scalar hs).2]
    rfl
  · cases room with
    | zero => simp [Value.depth] at hdepth
    | succ room =>
      rw [Value.depth, Nat.add_le_add_iff_right] at hdepth
      rw [tokensOfNode, Json.goInto_succ]
      simp [bind, Except.bind, Node.values_of_ordered Node.value_of_ordered hvs hdepth,
        Finish.check, pure, Except.pure, Except.toOption, tokensOf?]
  · rfl

theorem toOption_setField (h : n.ordered? = some v) (hdepth : v.depth ≤ room)
    (d : GrammarDocument) (field : Field) :
    (setField room d n field).toOption = (field.content? v).map (d.put field) := by
  cases field with
  | name =>
    rw [Field.content?, ← toOption_optionalText h, setField]
    cases n.optionalText <;> rfl
  | rules =>
    rw [Field.content?, ← toOption_rulesOfNode h hdepth, setField]
    cases rulesOfNode room n <;> rfl
  | extras | externals =>
    rw [Field.content?, ← toOption_tokensOfNode h hdepth, setField]
    cases tokensOfNode room n <;> rfl

end SetField

/-! ## Members -/

/-- What a field becomes when members are read: it has what was read of its one member, or what it
had before.  A field that was seen has no member. -/
structure SetsAt (field : Field) (seen : List Field) (d : GrammarDocument)
    (es : List (String × Value)) (c : field.Content) : Prop where
  once : (es.map Prod.fst).count field.label ≤ if field ∈ seen then 0 else 1
  set : ∀ v, (field.label, v) ∈ es → field.content? v = some c
  kept : field.label ∉ es.map Prod.fst → c = d.get field

/-- What a document becomes when members are read. -/
def Sets (seen : List Field) (d : GrammarDocument) (es : List (String × Value))
    (d' : GrammarDocument) : Prop :=
  ∀ field, SetsAt field seen d es (d'.get field)

section Sets

variable {seen seen' : List Field} {d d' d₀ : GrammarDocument} {field : Field} {k : String}
  {v : Value} {es : List (String × Value)} {c : field.Content}

/-- Only what was seen and had of the field itself matters. -/
theorem SetsAt.congr (hseen : field ∈ seen ↔ field ∈ seen') (hget : d.get field = d₀.get field) :
    SetsAt field seen d es c ↔ SetsAt field seen' d₀ es c := by
  constructor
  · rintro ⟨honce, hset, hkept⟩
    exact ⟨by simpa only [hseen] using honce, hset, hget ▸ hkept⟩
  · rintro ⟨honce, hset, hkept⟩
    exact ⟨by simpa only [hseen] using honce, hset, hget ▸ hkept⟩

/-- A member at another key does not matter. -/
theorem setsAt_cons_iff_of_ne (hk : k ≠ field.label) :
    SetsAt field seen d ((k, v) :: es) c ↔ SetsAt field seen d es c := by
  constructor
  · rintro ⟨honce, hset, hkept⟩
    rw [List.map_cons, List.count_cons_of_ne hk] at honce
    exact ⟨honce, fun w hw ↦ hset w (List.mem_cons_of_mem _ hw),
      fun hnot ↦ hkept (by simpa [hk.symm] using hnot)⟩
  · rintro ⟨honce, hset, hkept⟩
    refine ⟨?_, fun w hw ↦ hset w (by simpa [hk.symm] using hw),
      fun hnot ↦ hkept fun hmem ↦ hnot (List.mem_cons_of_mem _ hmem)⟩
    rwa [List.map_cons, List.count_cons_of_ne hk]

theorem setsAt_iff_of_mem (hseen : field ∈ seen) :
    SetsAt field seen d es c ↔
      field.label ∉ es.map Prod.fst ∧ c = d.get field := by
  constructor
  · rintro ⟨honce, -, hkept⟩
    rw [if_pos hseen, Nat.le_zero, List.count_eq_zero] at honce
    exact ⟨honce, hkept honce⟩
  · rintro ⟨hnot, hget⟩
    refine ⟨?_, fun w hw ↦ absurd (List.mem_map_of_mem hw) hnot, fun _ ↦ hget⟩
    rw [List.count_eq_zero.mpr hnot]
    exact Nat.zero_le _

/-- The member of a field sets it, and there is no other one. -/
theorem setsAt_cons_iff (hseen : field ∉ seen) :
    SetsAt field seen d ((field.label, v) :: es) c ↔
      field.content? v = some c ∧ field.label ∉ es.map Prod.fst := by
  constructor
  · rintro ⟨honce, hset, -⟩
    rw [if_neg hseen, List.map_cons, List.count_cons_self] at honce
    exact ⟨hset v List.mem_cons_self, List.count_eq_zero.mp (by omega)⟩
  · rintro ⟨hcontent, hnot⟩
    have hcount : (((field.label, v) :: es).map Prod.fst).count field.label = 1 := by
      rw [List.map_cons, List.count_cons_self, List.count_eq_zero.mpr hnot]
    refine ⟨?_, fun w hw ↦ ?_, fun h ↦ absurd List.mem_cons_self h⟩
    · exact Nat.le_of_eq (hcount.trans (if_neg hseen).symm)
    · rcases List.mem_cons.mp hw with heq | hw
      · rwa [(Prod.mk.inj heq).2]
      · exact absurd (List.mem_map_of_mem hw) hnot

theorem sets_nil_iff : Sets seen d [] d' ↔ d' = d := by
  constructor
  · intro h
    exact ext_get fun field ↦ (h field).kept List.not_mem_nil
  · rintro rfl field
    exact ⟨Nat.zero_le _, fun _ hw ↦ absurd hw List.not_mem_nil, fun _ ↦ rfl⟩

/-- The first member of a field sets it, and then the others set the other fields. -/
theorem sets_cons_iff (hseen : field ∉ seen) :
    Sets seen d ((field.label, v) :: es) d' ↔
      ∃ c, field.content? v = some c ∧ Sets (field :: seen) (d.put field c) es d' := by
  have hother : ∀ (other : Field) (c : field.Content), other ≠ field →
      (SetsAt other seen d ((field.label, v) :: es) (d'.get other) ↔
        SetsAt other (field :: seen) (d.put field c) es (d'.get other)) := by
    intro other c hne
    have hlabel : field.label ≠ other.label := fun heq ↦ hne (Field.label_injective heq.symm)
    rw [setsAt_cons_iff_of_ne hlabel]
    exact SetsAt.congr (by simp [hne]) (get_put_of_ne d hne c).symm
  constructor
  · intro h
    obtain ⟨hcontent, hnot⟩ := (setsAt_cons_iff hseen).mp (h field)
    refine ⟨d'.get field, hcontent, fun other ↦ ?_⟩
    by_cases hne : other = field
    · subst hne
      exact (setsAt_iff_of_mem List.mem_cons_self).mpr ⟨hnot, (get_put d other _).symm⟩
    · exact (hother other _ hne).mp (h other)
  · rintro ⟨c, hcontent, h⟩ other
    by_cases hne : other = field
    · subst hne
      obtain ⟨hnot, hget⟩ := (setsAt_iff_of_mem List.mem_cons_self).mp (h other)
      rw [get_put] at hget
      exact (setsAt_cons_iff hseen).mpr ⟨hget ▸ hcontent, hnot⟩
    · exact (hother other c hne).mpr (h other)

end Sets

section SetMembers

variable {room : Nat} {seen : List Field} {d d' : GrammarDocument} {ms : List (Key × Node)}
  {es : List (String × Value)}

/-- **The reader sets the fields**, if all members can be read. -/
theorem setMembers_iff (h : orderedMembers? ms = some es)
    (hdepth : Value.membersDepth es ≤ room) :
    (∃ seen', setMembers room seen d ms = .ok (seen', d') ∧ .rules ∈ seen') ↔
      Sets seen d es d' ∧ (.rules ∈ seen ∨ "rules" ∈ es.map Prod.fst) := by
  induction ms generalizing seen d es with
  | nil =>
    cases h
    rw [sets_nil_iff]
    simp [setMembers, eq_comm]
  | cons m ms ih =>
    obtain ⟨key, n⟩ := m
    obtain ⟨k, v, es, hkey, hv, hes, rfl⟩ := Node.exists_of_orderedMembers_cons h
    rw [Value.membersDepth, Nat.max_le] at hdepth
    cases hfield : Field.ofName? k with
    | none =>
      have hk : ∀ field : Field, k ≠ field.label := by
        intro field heq
        rw [Field.ofName?_eq_some_iff.mpr heq] at hfield
        contradiction
      have hrules : "rules" ≠ k := (hk .rules).symm
      have hsets : Sets seen d ((k, v) :: es) d' ↔ Sets seen d es d' :=
        forall_congr' fun field ↦ setsAt_cons_iff_of_ne (hk field)
      rw [setMembers_skip hkey hfield (Node.skip_of_ordered hv), ih hes hdepth.2, hsets]
      simp [hrules]
    | some field =>
      obtain rfl := Field.ofName?_eq_some_iff.mp hfield
      by_cases hseen : field ∈ seen
      · rw [setMembers_repeated hkey hfield hseen]
        constructor
        · rintro ⟨_, hread, -⟩
          contradiction
        · rintro ⟨hsets, -⟩
          exact absurd List.mem_cons_self ((setsAt_iff_of_mem hseen).mp (hsets field)).1
      · have hset := toOption_setField hv hdepth.1 d field
        have hrules : (.rules ∈ seen ∨ "rules" ∈ field.label :: es.map Prod.fst) ↔
            (.rules ∈ field :: seen ∨ "rules" ∈ es.map Prod.fst) := by
          cases field <;> simp [Field.label]
        rw [setMembers_cons hkey hfield hseen, sets_cons_iff hseen, List.map_cons, hrules]
        cases hcontent : field.content? v with
        | none =>
          rw [hcontent, Option.map_none] at hset
          cases hread : setField room d n field with
          | error f => simp [Except.bind]
          | ok d₁ => simp [hread, Except.toOption] at hset
        | some c =>
          rw [hcontent, Option.map_some] at hset
          rw [Json.eq_ok_of_toOption hset]
          simp only [Option.some.injEq, exists_eq_left']
          exact ih hes hdepth.2

end SetMembers

/-! ## Grammars -/

/-- The members of a document are those of a grammar: the four that count stand there once at most,
with what may stand there, and there are rules. -/
structure IsGrammar (members : List (String × Value)) : Prop where
  once : ∀ field : Field, (members.map Prod.fst).count field.label ≤ 1
  name : ∀ v, ("name", v) ∈ members → v = .null ∨ ∃ s, v = .string s
  rules : ∃ rules, ("rules", .object rules) ∈ members
  extras : ∀ v, ("extras", v) ∈ members → ∃ items, v = .list items
  externals : ∀ v, ("externals", v) ∈ members → ∃ items, v = .list items

/-- The items of the list at a key; none if there is no list. -/
def itemsAt (k : String) (members : List (String × Value)) : List Value :=
  match lastAt? k members with
  | some (.list items) => items
  | _ => []

/-- All values that the walk goes over: the last bodies of the rules, and the extra and the external
tokens. -/
def walked (members rules : List (String × Value)) : Value :=
  .list (lastBodies rules ++ itemsAt "extras" members ++ itemsAt "externals" members)

section Document

variable {members : List (String × Value)} {d : GrammarDocument}

/-- What stands in a field of a grammar has a content. -/
theorem IsGrammar.exists_content? (h : IsGrammar members) {field : Field} {v : Value}
    (hv : (field.label, v) ∈ members) : ∃ c, field.content? v = some c := by
  cases field with
  | name =>
    rcases h.name v hv with rfl | ⟨s, rfl⟩
    · exact ⟨none, rfl⟩
    · exact ⟨some s, rfl⟩
  | rules =>
    obtain ⟨rules, hrules⟩ := h.rules
    have hlast := lastAt?_of_count_le_one (h.once .rules) hv
    rw [lastAt?_of_count_le_one (h.once .rules) hrules] at hlast
    cases hlast
    exact ⟨_, rfl⟩
  | extras =>
    obtain ⟨items, rfl⟩ := h.extras v hv
    exact ⟨_, rfl⟩
  | externals =>
    obtain ⟨items, rfl⟩ := h.externals v hv
    exact ⟨_, rfl⟩

theorem exists_get {P : (field : Field) → field.Content → Prop} (h : ∀ field, ∃ c, P field c) :
    ∃ d : GrammarDocument, ∀ field, P field (d.get field) := by
  obtain ⟨name, hname⟩ := h .name
  obtain ⟨rules, hrules⟩ := h .rules
  obtain ⟨extras, hextras⟩ := h .extras
  obtain ⟨externals, hexternals⟩ := h .externals
  refine ⟨{ name, rules, extras, externals }, fun field ↦ ?_⟩
  cases field <;> assumption

/-- **The members of grammars can be read**, and no others. -/
theorem isGrammar_iff :
    IsGrammar members ↔ (∃ d, Sets [] {} members d) ∧ "rules" ∈ members.map Prod.fst := by
  constructor
  · intro h
    refine ⟨exists_get fun field ↦ ?_, ?_⟩
    · by_cases hkey : field.label ∈ members.map Prod.fst
      · obtain ⟨⟨_, v⟩, hv, rfl⟩ := List.mem_map.mp hkey
        obtain ⟨c, hc⟩ := h.exists_content? hv
        refine ⟨c, h.once field, fun w hw ↦ ?_, fun hnot ↦ absurd hkey hnot⟩
        have hlast := lastAt?_of_count_le_one (h.once field) hv
        rw [lastAt?_of_count_le_one (h.once field) hw] at hlast
        rw [Option.some.inj hlast, hc]
      · exact ⟨_, h.once field, fun w hw ↦ absurd (List.mem_map_of_mem hw) hkey, fun _ ↦ rfl⟩
    · obtain ⟨rules, hrules⟩ := h.rules
      exact List.mem_map_of_mem hrules
  · rintro ⟨⟨d, h⟩, hkey⟩
    refine ⟨fun field ↦ (h field).once, fun v hv ↦ ?_, ?_, fun v hv ↦ ?_, fun v hv ↦ ?_⟩
    · have hname : nameOf? v = some _ := (h .name).set v hv
      cases v with
      | null => exact .inl rfl
      | string s => exact .inr ⟨s, rfl⟩
      | _ => contradiction
    · obtain ⟨⟨_, v⟩, hv, rfl⟩ := List.mem_map.mp hkey
      have hrules : rulesOf? v = some _ := (h .rules).set v hv
      cases v with
      | object rules => exact ⟨rules, hv⟩
      | _ => contradiction
    · exact exists_of_tokensOf? ((h .extras).set v hv)
    · exact exists_of_tokensOf? ((h .externals).set v hv)

/-- What is read of the list at a key, or of none. -/
theorem eq_sortedItems_itemsAt {k : String} {tokens : List Value}
    (hset : ∀ v, (k, v) ∈ members → tokensOf? v = some tokens)
    (hkept : k ∉ members.map Prod.fst → tokens = []) :
    tokens = sortedItems (itemsAt k members) := by
  rw [itemsAt]
  cases hlast : lastAt? k members with
  | none => exact hkept (lastAt?_eq_none_iff.mp hlast)
  | some v =>
    have htokens := hset v (mem_of_lastAt? hlast)
    obtain ⟨items, rfl⟩ := exists_of_tokensOf? htokens
    exact (Option.some.inj htokens).symm

/-- **The grammar that is read** has the keys at the rules and the names that the walk collects. -/
theorem Sets.lists_grammar (h : Sets [] {} members d) {rules : List (String × Value)}
    (hrules : ("rules", .object rules) ∈ members) :
    d.grammar.Lists d.name (rules.map Prod.fst) (symbols (walked members rules).sorted) := by
  have hcontent : rulesOf? (.object rules) = some d.rules := (h .rules).set _ hrules
  have hbodies : d.rules = putBodies [] rules := (Option.some.inj hcontent).symm
  have hextras : d.extras = sortedItems (itemsAt "extras" members) :=
    eq_sortedItems_itemsAt (h .extras).set (h .extras).kept
  have hexternals : d.externals = sortedItems (itemsAt "externals" members) :=
    eq_sortedItems_itemsAt (h .externals).set (h .externals).kept
  have hsymbols : symbols (walked members rules).sorted =
      symbolsOfItems (d.rules.map Prod.snd ++ d.extras ++ d.externals) := by
    rw [hbodies, hextras, hexternals, map_snd_putBodies, walked, Value.sorted, symbols]
    simp only [sortedItems_eq, List.map_append]
  have hlists := d.lists_grammar
  have hnames : (d.rules.map Prod.fst).eraseDups = (rules.map Prod.fst).eraseDups := by
    rw [hbodies, map_fst_putBodies, eraseDups_of_nodup (nodup_eraseDups _)]
  exact ⟨hlists.name_eq, hlists.ruleNames_eq.trans hnames, hsymbols ▸ hlists.references_eq⟩

/-- **What is read of a document**: all its members are read, and it has rules. -/
theorem ofNode_iff {n : Node} {tree : Value} (h : n.ordered? = some tree)
    (hdepth : tree.depth ≤ Json.deepest) :
    ofNode n = .ok d ↔ ∃ members, tree = .object members ∧
      Sets [] {} members d ∧ "rules" ∈ members.map Prod.fst := by
  rcases Node.ordered_cases h with ⟨s, stop, rfl, hs⟩ | ⟨start, items, stop, vs, rfl, -, rfl⟩ |
    ⟨start, ms, stop, members, rfl, hms, rfl⟩
  · refine ⟨fun hread ↦ by contradiction, ?_⟩
    rintro ⟨members, rfl, -⟩
    exact absurd rfl ((Json.Scalar.value_ne hs).2 members)
  · refine ⟨fun hread ↦ by contradiction, ?_⟩
    rintro ⟨members, heq, -⟩
    contradiction
  · rw [Value.depth, Json.deepest, Nat.succ_le_succ_iff] at hdepth
    have hsets : (∃ seen, setMembers 126 [] {} ms = .ok (seen, d) ∧ .rules ∈ seen) ↔
        Sets [] {} members d ∧ "rules" ∈ members.map Prod.fst := by
      rw [setMembers_iff hms hdepth]
      simp
    rw [ofNode, Json.deepest, Json.goInto_succ]
    simp only [Value.object.injEq, exists_eq_left']
    rw [← hsets]
    show (setMembers 126 [] {} ms).bind _ = _ ↔ _
    cases hread : setMembers 126 [] {} ms with
    | error f => simp [Except.bind]
    | ok found =>
      obtain ⟨seen, d'⟩ := found
      by_cases hrules : Field.rules ∈ seen
      · simp [Except.bind, hrules, pure, Except.pure]
      · simp [Except.bind, hrules]

end Document

end GrammarDocument

open GrammarDocument (IsGrammar Precedes UsedAt walked)

theorem Grammar.ofJson_eq_ok_iff {source : String} {tree : Value} {g : Grammar}
    (htree : (Document.read source).Holds tree) :
    Grammar.ofJson source = .ok g ↔
      ∃ d, GrammarDocument.ofNode (Document.read source).root = .ok d ∧ d.grammar = g := by
  rw [Grammar.ofJson, Document.decode, htree.trailing]
  cases GrammarDocument.ofNode (Document.read source).root with
  | error f => simp [Functor.map, Except.map, bind, Except.bind]
  | ok d => simp [Functor.map, Except.map, bind, Except.bind]

/-- **The reading of a grammar document.**  A document whose lists and objects do not lie in too
many others is read if its members are those of a grammar, and only then.  The rules are the keys at
its rules in the order in which they first occur; the references are the names of the symbols in the
last bodies of the rules, in the extra and in the external tokens; and those that are no rules are
undeclared, in the order of first use. -/
theorem Grammar.ofJson_members {source : String} {tree : Value}
    (htree : (Document.read source).Holds tree) (hdepth : tree.depth ≤ Json.deepest) :
    ((∃ g, Grammar.ofJson source = .ok g) ↔
        ∃ members, tree = .object members ∧ IsGrammar members) ∧
      ∀ g, Grammar.ofJson source = .ok g →
        ∃ members rules, tree = .object members ∧ ("rules", .object rules) ∈ members ∧
          g.ruleNames = (rules.map Prod.fst).eraseDups ∧
            (∀ x, g.isReferenced x = true ↔ ∃ steps, UsedAt x steps (walked members rules)) ∧
              g.undeclared.Nodup ∧
              (∀ x, x ∈ g.undeclared ↔ g.isReferenced x = true ∧ x ∉ g.ruleNames) ∧
              g.undeclared.Pairwise fun x y ↦
                ∃ steps, UsedAt x steps (walked members rules) ∧
                  ∀ steps', UsedAt y steps' (walked members rules) → Precedes steps steps' := by
  constructor
  · simp only [ofJson_eq_ok_iff htree, GrammarDocument.ofNode_iff htree.root hdepth,
      GrammarDocument.isGrammar_iff]
    constructor
    · rintro ⟨g, d, ⟨members, rfl, hsets, hrules⟩, -⟩
      exact ⟨members, rfl, ⟨d, hsets⟩, hrules⟩
    · rintro ⟨members, rfl, ⟨d, hsets⟩, hrules⟩
      exact ⟨d.grammar, d, ⟨members, rfl, hsets, hrules⟩, rfl⟩
  · intro g hg
    obtain ⟨d, hd, rfl⟩ := (ofJson_eq_ok_iff htree).mp hg
    obtain ⟨members, rfl, hsets, hkey⟩ := (GrammarDocument.ofNode_iff htree.root hdepth).mp hd
    obtain ⟨rules, hrules⟩ := (GrammarDocument.isGrammar_iff.mpr ⟨⟨d, hsets⟩, hkey⟩).rules
    have hlists := hsets.lists_grammar hrules
    have hwalk := GrammarDocument.listing_symbols (walked members rules)
    have hused : ∀ x, d.grammar.isReferenced x = true ↔
        ∃ steps, UsedAt x steps (walked members rules) := by
      intro x
      rw [Grammar.isReferenced, hlists.references_eq, List.contains_iff_mem, List.mem_eraseDups,
        hwalk.mem_iff]
    have hnames : d.grammar.ruleNames = (rules.map Prod.fst).eraseDups := hlists.ruleNames_eq
    have hundeclared := hlists.undeclared_eq
    rw [← hlists.ruleNames_eq] at hundeclared
    refine ⟨members, rules, rfl, hrules, hnames, hused, ?_, fun x ↦ ?_, ?_⟩
    · rw [hundeclared]
      exact (nodup_eraseDups _).filter _
    · rw [hundeclared, List.mem_filter, List.mem_eraseDups, hwalk.mem_iff, hused]
      simp
    · rw [hundeclared]
      exact hwalk.pairwise_eraseDups.filter _

/-- A document with a rule that has two bodies, and with symbols in a member that stands in front of
the type of its object. -/
theorem Grammar.ofJson_members_nested :
    let symbol : String → Value := fun name ↦
      .object [("type", .string "SYMBOL"), ("name", .string name)]
    let rules : List (String × Value) :=
      [("b", symbol "x"), ("a", .object [("members", .list [symbol "a", symbol "y"]),
        ("type", .string "SEQ")]), ("b", symbol "z")]
    let tree : Value := .object [("rules", .object rules), ("name", .null)]
    (Document.read tree.compact).Holds tree ∧ tree.depth ≤ Json.deepest ∧
      ∃ g, Grammar.ofJson tree.compact = .ok g ∧ g.ruleNames = ["b", "a"] ∧
        g.isReferenced "y" = true ∧ g.undeclared = ["z", "y"] := by
  intro symbol rules tree
  have htree : (Document.read tree.compact).Holds tree := Document.holds_compact rfl
  have hdepth : tree.depth ≤ Json.deepest := by decide +kernel
  have hreading := Grammar.ofJson_members htree hdepth
  have hgrammar : IsGrammar [("rules", .object rules), ("name", .null)] :=
    { once := fun field ↦ by cases field <;> decide
      name := by simp
      rules := ⟨rules, List.mem_cons_self⟩
      extras := by simp
      externals := by simp }
  obtain ⟨g, hg⟩ := hreading.1.mpr ⟨_, rfl, hgrammar⟩
  obtain ⟨members, rules', hmembers, hrules, hnames, hused, -⟩ := hreading.2 g hg
  obtain rfl : members = [("rules", .object rules), ("name", .null)] := by
    injection hmembers.symm
  obtain rfl : rules' = rules := by simpa using hrules
  have hundeclared : (Grammar.ofJson tree.compact).toOption.map (·.undeclared) =
      some ["z", "y"] := by
    decide +kernel
  rw [hg] at hundeclared
  refine ⟨htree, hdepth, g, hg, by rw [hnames]; decide +kernel, (hused "y").mpr ?_,
    Option.some.inj hundeclared⟩
  exact ⟨[.item 1, .key "members", .item 1],
    .item rfl (.entry rfl (.item rfl (.here rfl rfl)))⟩

end Concord
