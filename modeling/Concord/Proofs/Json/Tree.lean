import Mathlib.Data.List.Pairwise
import Concord.Json.Value

/-!
# Trees of a JSON text

What can be said of the nodes of a text before any reader goes over them.

* `Node.isWhole` — the text could be read to the end of the node, so that the node is the tree of
  ordered members that the text denotes.
* `Node.depth` — how many lists and objects lie in one another.
* `HasMember`, `AtMostOnce` and `LastMember` — what stands at a key of an object, repeated keys
  among them.
-/

set_option autoImplicit false

namespace Concord.Json

/-- What two readings one behind the other come to. -/
theorem bind_eq_ok_iff {ε α β : Type} {x : Except ε α} {f : α → Except ε β} {b : β} :
    x >>= f = .ok b ↔ ∃ a, x = .ok a ∧ f a = .ok b := by
  cases x with
  | error e => simp [bind, Except.bind]
  | ok a => simp [bind, Except.bind]

theorem exists_of_map_eq_ok {ε α β : Type} {x : Except ε α} {f : α → β} {b : β}
    (h : f <$> x = .ok b) : ∃ a, x = .ok a ∧ f a = b := by
  cases x with
  | error e => contradiction
  | ok a => exact ⟨a, rfl, Except.ok.inj h⟩

theorem eq_ok_of_toOption {α : Type} {x : Except Fault α} {a : α} (h : x.toOption = some a) :
    x = .ok a := by
  cases x with
  | error e => contradiction
  | ok a' => rw [Option.some.inj h]

/-! ## Whole nodes -/

/-- Whether a list or an object is closed. -/
def Finish.isClosed : Finish → Bool
  | closed _ => true
  | broken _ => false

theorem Finish.check_of_isClosed {f : Finish} (h : f.isClosed = true) : f.check = .ok () := by
  cases f with
  | closed stop => rfl
  | broken b => exact absurd h Bool.false_ne_true

/-- Whether a key stands for a text. -/
def Key.isWhole (key : Key) : Bool := key.text.isOk

theorem Key.text_of_isWhole {key : Key} (h : key.isWhole = true) : ∃ k, key.text = .ok k := by
  cases htext : key.text with
  | error f => simp [isWhole, htext, Except.isOk, Except.toBool] at h
  | ok k => exact ⟨k, rfl⟩

namespace Node

mutual

/-- Whether every list and object of the node is closed and every key stands for a text. -/
def isWhole : Node → Bool
  | scalar _ _ => true
  | list _ items finish => areWhole items && finish.isClosed
  | object _ members finish => membersAreWhole members && finish.isClosed
  | broken _ => false

/-- Whether all nodes of a list are whole. -/
def areWhole : List Node → Bool
  | [] => true
  | n :: ns => isWhole n && areWhole ns

/-- Whether all keys and nodes of an object are whole. -/
def membersAreWhole : List (Key × Node) → Bool
  | [] => true
  | (key, n) :: ms => key.isWhole && isWhole n && membersAreWhole ms

end

mutual

/-- How many lists and objects lie in one another. -/
def depth : Node → Nat
  | scalar _ _ | broken _ => 0
  | list _ items _ => itemsDepth items + 1
  | object _ members _ => membersDepth members + 1

/-- The greatest depth among the nodes of a list. -/
def itemsDepth : List Node → Nat
  | [] => 0
  | n :: ns => max (depth n) (itemsDepth ns)

/-- The greatest depth among the nodes of an object. -/
def membersDepth : List (Key × Node) → Nat
  | [] => 0
  | (_, n) :: ms => max (depth n) (membersDepth ms)

end

theorem areWhole_iff {ns : List Node} : areWhole ns = true ↔ ∀ n ∈ ns, n.isWhole = true := by
  induction ns with
  | nil => simp [areWhole]
  | cons n ns ih => simp [areWhole, ih]

theorem membersAreWhole_iff {ms : List (Key × Node)} :
    membersAreWhole ms = true ↔ ∀ m ∈ ms, m.1.isWhole = true ∧ m.2.isWhole = true := by
  induction ms with
  | nil => simp [membersAreWhole]
  | cons m ms ih =>
    obtain ⟨key, n⟩ := m
    simp [membersAreWhole, ih]

theorem itemsDepth_le_iff {ns : List Node} {d : Nat} :
    itemsDepth ns ≤ d ↔ ∀ n ∈ ns, n.depth ≤ d := by
  induction ns with
  | nil => simp [itemsDepth]
  | cons n ns ih => rw [itemsDepth, Nat.max_le, ih, List.forall_mem_cons]

theorem membersDepth_le_iff {ms : List (Key × Node)} {d : Nat} :
    membersDepth ms ≤ d ↔ ∀ m ∈ ms, m.2.depth ≤ d := by
  induction ms with
  | nil => simp [membersDepth]
  | cons m ms ih => rw [membersDepth, Nat.max_le, ih, List.forall_mem_cons]

/-- What is in a whole list is whole. -/
theorem of_list_isWhole {start : Nat} {items : List Node} {finish : Finish}
    (h : (list start items finish).isWhole = true) :
    (∀ n ∈ items, n.isWhole = true) ∧ finish.check = .ok () := by
  rw [isWhole, Bool.and_eq_true, areWhole_iff] at h
  exact ⟨h.1, Finish.check_of_isClosed h.2⟩

/-- What is in a whole object is whole. -/
theorem of_object_isWhole {start : Nat} {members : List (Key × Node)} {finish : Finish}
    (h : (object start members finish).isWhole = true) :
    (∀ m ∈ members, m.1.isWhole = true ∧ m.2.isWhole = true) ∧ finish.check = .ok () := by
  rw [isWhole, Bool.and_eq_true, membersAreWhole_iff] at h
  exact ⟨h.1, Finish.check_of_isClosed h.2⟩

/-- A whole node can be skipped. -/
theorem skip_of_isWhole {n : Node} (h : n.isWhole = true) : n.skip = .ok () := by
  rw [skip]
  cases n with
  | scalar s stop => rfl
  | list start items finish =>
    cases finish <;> simp_all [isWhole, Finish.isClosed, skippingFault?]
  | object start members finish =>
    cases finish <;> simp_all [isWhole, Finish.isClosed, skippingFault?]
  | broken b => simp [isWhole] at h

end Node

/-- Whether a text could be read to its end, and holds nothing behind its value. -/
def Document.isWhole (d : Document) : Bool := d.root.isWhole && d.trailing.isNone

/-- Of a whole text, only what the reader of the root says matters. -/
theorem Document.decode_of_isWhole {α : Type} {d : Document} (h : d.isWhole = true)
    (read : Node → Except Fault α) : d.decode read = read d.root := by
  rw [isWhole, Bool.and_eq_true, Option.isNone_iff_eq_none] at h
  rw [decode, h.2]
  cases read d.root <;> rfl

theorem Document.read_root_of_decode {α : Type} {d : Document} {read : Node → Except Fault α}
    {a : α} (h : d.decode read = .ok a) : read d.root = .ok a := by
  rw [decode, bind_eq_ok_iff] at h
  obtain ⟨a', hread, h⟩ := h
  split at h
  · contradiction
  · cases h
    exact hread

theorem goInto_succ (room start : Nat) : goInto (room + 1) start = .ok room := rfl

theorem eq_succ_of_goInto {room start room' : Nat} (h : goInto room start = .ok room') :
    room = room' + 1 := by
  cases room with
  | zero => contradiction
  | succ room => rw [Except.ok.inj h]

/-! ## Members -/

/-- The members of an object. -/
def Node.members : Node → List (Key × Node)
  | object _ members _ => members
  | _ => []

/-- A node stands at a key. -/
def HasMember (ms : List (Key × Node)) (k : String) (n : Node) : Prop :=
  ∃ key, key.text = .ok k ∧ (key, n) ∈ ms

/-- A key does not repeat. -/
def AtMostOnce (ms : List (Key × Node)) (k : String) : Prop :=
  ms.Pairwise fun a b ↦ a.1.text = .ok k → b.1.text ≠ .ok k

/-- A node is the last one at a key. -/
def LastMember (ms : List (Key × Node)) (k : String) (n : Node) : Prop :=
  ∃ front key back, ms = front ++ (key, n) :: back ∧ key.text = .ok k ∧ ∀ m, ¬ HasMember back k m

section Members

variable {ms : List (Key × Node)} {k k' : String} {n m : Node} {key : Key}

theorem not_hasMember_nil : ¬ HasMember [] k n := by
  rintro ⟨key, -, h⟩
  exact absurd h List.not_mem_nil

theorem hasMember_cons (hkey : key.text = .ok k') :
    HasMember ((key, m) :: ms) k n ↔ (k = k' ∧ n = m) ∨ HasMember ms k n := by
  constructor
  · rintro ⟨key', htext, hmem⟩
    rcases List.mem_cons.mp hmem with h | h
    · obtain ⟨rfl, rfl⟩ := Prod.mk.inj h
      rw [hkey, Except.ok.injEq] at htext
      exact .inl ⟨htext.symm, rfl⟩
    · exact .inr ⟨key', htext, h⟩
  · rintro (⟨rfl, rfl⟩ | ⟨key', htext, h⟩)
    · exact ⟨key, hkey, List.mem_cons_self⟩
    · exact ⟨key', htext, List.mem_cons_of_mem _ h⟩

theorem atMostOnce_cons (hkey : key.text = .ok k') :
    AtMostOnce ((key, m) :: ms) k ↔ (k = k' → ∀ n, ¬ HasMember ms k n) ∧ AtMostOnce ms k := by
  rw [AtMostOnce, List.pairwise_cons, hkey]
  refine and_congr ⟨fun h hk n hn ↦ ?_, fun h e he hk htext ↦ ?_⟩ Iff.rfl
  · obtain ⟨key', htext, hmem⟩ := hn
    exact h (key', n) hmem (by rw [hk]) htext
  · exact h (Except.ok.inj hk).symm e.2 ⟨e.1, htext, he⟩

/-- At most one node stands at a key that does not repeat. -/
theorem AtMostOnce.unique (h : AtMostOnce ms k) (hn : HasMember ms k n) (hm : HasMember ms k m) :
    n = m := by
  obtain ⟨key, hkey, hn⟩ := hn
  obtain ⟨key', hkey', hm⟩ := hm
  by_contra hne
  have hsymm : Std.Symm fun a b : Key × Node ↦ a.1.text = .ok k → b.1.text ≠ .ok k :=
    ⟨fun a b hab hb ha ↦ hab ha hb⟩
  exact h.forall hn hm (fun heq ↦ hne (Prod.mk.inj heq).2) hkey hkey'

theorem LastMember.hasMember (h : LastMember ms k n) : HasMember ms k n := by
  obtain ⟨front, key, back, rfl, hkey, -⟩ := h
  exact ⟨key, hkey, List.mem_append_right front List.mem_cons_self⟩

theorem LastMember.unique (hn : LastMember ms k n) (hm : LastMember ms k m) : n = m := by
  obtain ⟨front, key, back, rfl, hkey, hback⟩ := hn
  obtain ⟨front', key', back', heq, hkey', hback'⟩ := hm
  -- were one of the two in front of the other, a member with its key would stand behind it
  rcases List.append_eq_append_iff.mp heq with ⟨as, rfl, has⟩ | ⟨as, rfl, has⟩
  · cases as with
    | nil => exact (Prod.mk.inj (List.cons.inj has).1).2
    | cons a as =>
      obtain ⟨-, rfl⟩ := List.cons.inj has
      exact absurd ⟨key', hkey', List.mem_append_right as List.mem_cons_self⟩ (hback m)
  · cases as with
    | nil => exact (Prod.mk.inj (List.cons.inj has).1).2.symm
    | cons a as =>
      obtain ⟨-, rfl⟩ := List.cons.inj has
      exact absurd ⟨key, hkey, List.mem_append_right as List.mem_cons_self⟩ (hback' n)

theorem not_lastMember_nil : ¬ LastMember [] k n :=
  fun h ↦ not_hasMember_nil h.hasMember

theorem lastMember_cons (hkey : key.text = .ok k') :
    LastMember ((key, m) :: ms) k n ↔
      ((k = k' ∧ n = m) ∧ ∀ n', ¬ HasMember ms k n') ∨ LastMember ms k n := by
  constructor
  · rintro ⟨front, key', back, heq, htext, hback⟩
    cases front with
    | nil =>
      obtain ⟨hhead, rfl⟩ := List.cons.inj heq
      obtain ⟨rfl, rfl⟩ := Prod.mk.inj hhead
      rw [hkey, Except.ok.injEq] at htext
      exact .inl ⟨⟨htext.symm, rfl⟩, hback⟩
    | cons e front => exact .inr ⟨front, key', back, (List.cons.inj heq).2, htext, hback⟩
  · rintro (⟨⟨rfl, rfl⟩, hback⟩ | ⟨front, key', back, rfl, htext, hback⟩)
    · exact ⟨[], key, ms, rfl, hkey, hback⟩
    · exact ⟨(key, m) :: front, key', back, rfl, htext, hback⟩

end Members

end Concord.Json
