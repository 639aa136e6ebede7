import Mathlib.Data.Nat.Find
import Mathlib.Order.Bounds.Basic
import Concord.Proofs.Script.Nesting
import Concord.Script.Scan

/-!
# The delimiters of a script that matter

The scanner finds the `rules` object with a stack and a few flags that are set once.  Which braces
that object has can be said without them, by how the delimiters of the script nest:

* `IsCall` — the first parenthesis right behind the name `grammar`,
* `IsConfig` — the first brace directly within that parenthesis,
* `IsRules` — the first brace behind a `rules` key directly within that brace, or the first brace
  behind a `rules` key at all if the script has no call of `grammar`.

`DeclaresAt` says which keys directly within the braces of the `rules` object declare a rule.

`ScanState.opened_eq` says what the scanner does at a delimiter in one form for all of its roles.
-/

set_option autoImplicit false

namespace Concord.Script

/-! ## The delimiters that count -/

section Spec

variable (ts : List Token)

/-- The kind of token number `i`. -/
def kindAt (i : Nat) : Option TokenKind := ts[i]?.map (·.kind)

/-- The key that token number `i` stands for. -/
def keyAt? (i : Nat) : Option (List Char) := ts[i]?.bind Token.key?

/-- Token number `i` stands where a member of an object can begin. -/
def MemberAt (i : Nat) : Prop :=
  ∃ j, i = j + 1 ∧ (kindAt ts j = some (.opening .brace) ∨ kindAt ts j = some .comma)

/-- Token number `i` is a parenthesis right behind the name `grammar`. -/
def CallAt (i : Nat) : Prop :=
  kindAt ts i = some (.opening .paren) ∧
    ∃ j t, i = j + 1 ∧ ts[j]? = some t ∧ t.kind = .ident ∧ t.text = "grammar".toList

/-- The parenthesis of the first call of `grammar`. -/
def IsCall (g : Nat) : Prop := IsLeast {i | CallAt ts i} g

/-- Token number `i` is a brace directly within the parenthesis of the call. -/
def ConfigAt (i : Nat) : Prop :=
  kindAt ts i = some (.opening .brace) ∧ ∃ g, IsCall ts g ∧ Innermost (ts.take i) g

/-- The brace of the configuration. -/
def IsConfig (c : Nat) : Prop := IsLeast {i | ConfigAt ts i} c

/-- Token number `i` is a brace behind a colon behind a key `rules` at the front of a member. -/
def RulesKeyAt (i : Nat) : Prop :=
  kindAt ts i = some (.opening .brace) ∧
    ∃ k, i = k + 2 ∧ kindAt ts (k + 1) = some .colon ∧ keyAt? ts k = some "rules".toList ∧
      MemberAt ts k

/-- Token number `i` is a brace behind a `rules` key, directly within the configuration if the
script has a call of `grammar`. -/
def RulesAt (i : Nat) : Prop :=
  RulesKeyAt ts i ∧ ((∃ g, IsCall ts g) → ∃ c, IsConfig ts c ∧ Innermost (ts.take i) c)

/-- The brace of the `rules` object. -/
def IsRules (r : Nat) : Prop := IsLeast {i | RulesAt ts i} r

/-- Token number `i` is a key `name` directly within brace number `r`, at the front of a member
whose value or parameters follow it. -/
structure DeclaresAt (r i : Nat) (name : String) : Prop where
  within : Innermost (ts.take i) r
  member : MemberAt ts i
  key : keyAt? ts i = some name.toList
  follows : kindAt ts (i + 1) = some .colon ∨ kindAt ts (i + 1) = some (.opening .paren)

/-- The keys that declare a rule within brace number `r`, with their numbers and in order. -/
structure ListsKeys (r : Nat) (keys : List (Nat × String)) : Prop where
  sorted : keys.Pairwise (·.1 < ·.1)
  mem_iff : ∀ i name, (i, name) ∈ keys ↔ DeclaresAt ts r i name

end Spec

/-- The first of some numbers has been passed if any has. -/
theorem exists_isLeast_lt_iff {P : Nat → Prop} {i : Nat} :
    (∃ j < i, IsLeast {k | P k} j) ↔ ∃ j < i, P j := by
  classical
  refine ⟨fun ⟨j, hj, h⟩ ↦ ⟨j, hj, h.1⟩, fun ⟨j, hj, h⟩ ↦ ?_⟩
  have hex : ∃ k, P k := ⟨j, h⟩
  exact ⟨Nat.find hex, (Nat.find_min' hex h).trans_lt hj, Nat.find_spec hex,
    fun k hk ↦ Nat.find_min' hex hk⟩

theorem isLeast_iff {P : Nat → Prop} {i : Nat} :
    IsLeast {k | P k} i ↔ P i ∧ ¬ ∃ j < i, IsLeast {k | P k} j := by
  rw [exists_isLeast_lt_iff]
  refine ⟨fun h ↦ ⟨h.1, fun ⟨j, hj, hP⟩ ↦ absurd (h.2 hP) (Nat.not_le_of_lt hj)⟩, fun h ↦ ⟨h.1, ?_⟩⟩
  intro j hj
  exact Nat.le_of_not_lt fun hlt ↦ h.2 ⟨j, hlt, hj⟩

/-- One more number has been passed. -/
theorem exists_lt_succ_iff {P : Nat → Prop} {i : Nat} :
    (∃ j < i + 1, P j) ↔ (∃ j < i, P j) ∨ P i := by
  constructor
  · rintro ⟨j, hj, h⟩
    rcases Nat.lt_succ_iff_lt_or_eq.mp hj with hj | rfl
    · exact .inl ⟨j, hj, h⟩
    · exact .inr h
  · rintro (⟨j, hj, h⟩ | h)
    · exact ⟨j, Nat.lt_succ_of_lt hj, h⟩
    · exact ⟨i, Nat.lt_succ_self i, h⟩

/-! ## Looking around -/

section Cursor

variable {ts before after : List Token} {t : Token}

theorem getElem?_here (hts : ts = before.reverse ++ t :: after) : ts[before.length]? = some t := by
  subst hts
  simp

theorem kindAt_here (hts : ts = before.reverse ++ t :: after) :
    kindAt ts before.length = some t.kind := by
  rw [kindAt, getElem?_here hts, Option.map_some]

theorem keyAt?_here (hts : ts = before.reverse ++ t :: after) :
    keyAt? ts before.length = t.key? := by
  rw [keyAt?, getElem?_here hts, Option.bind_some]

theorem kindAt_next (hts : ts = before.reverse ++ t :: after) :
    kindAt ts (before.length + 1) = nearest? after := by
  subst hts
  rw [kindAt, nearest?, List.getElem?_append_right (by simp)]
  simp [List.head?_eq_getElem?]

theorem take_here (hts : ts = before.reverse ++ t :: after) :
    ts.take before.length = before.reverse := by
  subst hts
  simp

theorem take_next (hts : ts = before.reverse ++ t :: after) :
    ts.take (before.length + 1) = before.reverse ++ [t] := by
  subst hts
  rw [← List.length_reverse, List.take_length_add_append]
  simp

theorem step_back {b : Token} (hts : ts = (b :: before).reverse ++ t :: after) :
    ts = before.reverse ++ b :: t :: after := by
  simpa using hts

theorem memberAt_iff (hts : ts = before.reverse ++ t :: after) :
    MemberAt ts before.length ↔ atMemberStart before = true := by
  cases before with
  | nil => simp [MemberAt, atMemberStart, nearest?]
  | cons b before =>
    have hb := kindAt_here (step_back hts)
    rw [MemberAt]
    simp only [List.length_cons, Nat.add_right_cancel_iff, exists_eq_left', hb]
    simp [atMemberStart, nearest?]

theorem callAt_iff (hts : ts = before.reverse ++ t :: after) (ht : t.kind = .opening .paren) :
    CallAt ts before.length ↔ followsName "grammar" before = true := by
  have hkind := kindAt_here hts
  rw [ht] at hkind
  rw [CallAt, hkind]
  cases before with
  | nil => simp [followsName]
  | cons b before =>
    have hb := getElem?_here (step_back hts)
    simp only [List.length_cons, Nat.add_right_cancel_iff, true_and]
    constructor
    · rintro ⟨j, u, rfl, hu, hident, htext⟩
      rw [hb, Option.some_inj] at hu
      simp [followsName, hu, hident, htext]
    · intro h
      simp only [followsName, List.head?_cons, Option.any_some, Bool.and_eq_true, beq_iff_eq] at h
      exact ⟨_, b, rfl, hb, h.1, h.2⟩

theorem rulesKeyAt_iff (hts : ts = before.reverse ++ t :: after)
    (ht : t.kind = .opening .brace) :
    RulesKeyAt ts before.length ↔ followsKey "rules" before = true := by
  have hkind := kindAt_here hts
  rw [ht] at hkind
  rw [RulesKeyAt, hkind]
  match before with
  | [] => simp [followsKey]
  | [_] => simp [followsKey]
  | colon :: name :: before =>
    have hcolon := kindAt_here (step_back hts)
    have hname := step_back (step_back hts)
    have hkey := keyAt?_here hname
    have hmember := memberAt_iff hname
    rw [List.length_cons] at hcolon
    simp only [List.length_cons, followsKey, Bool.and_eq_true, beq_iff_eq, true_and, and_assoc]
    constructor
    · rintro ⟨k, hk, h1, h2, h3⟩
      obtain rfl : before.length = k := by omega
      exact ⟨by simpa [hcolon] using h1, by rw [← hkey, h2], hmember.mp h3⟩
    · rintro ⟨h1, h2, h3⟩
      exact ⟨before.length, rfl, by rw [hcolon, h1], by rw [hkey, h2], hmember.mpr h3⟩

end Cursor

/-! ## Roles -/

/-- The delimiters that can have a role, before it is asked which of them is the first. -/
def Candidate (mode : Mode) (ts : List Token) : Role → Nat → Prop
  | .plain, _ => False
  | .call, i => mode = .call ∧ CallAt ts i
  | .config, i => mode = .call ∧ ConfigAt ts i
  | .rules, i =>
    RulesKeyAt ts i ∧ (mode = .call → ∃ c, IsConfig ts c ∧ Innermost (ts.take i) c)

/-- The delimiter that has a role. -/
def Marked (mode : Mode) (ts : List Token) (r : Role) (i : Nat) : Prop :=
  IsLeast {j | Candidate mode ts r j} i

variable {mode : Mode} {ts : List Token}

theorem marked_call_iff {i : Nat} : Marked .call ts .call i ↔ IsCall ts i := by
  simp [Marked, IsCall, Candidate]

theorem marked_config_iff {i : Nat} : Marked .call ts .config i ↔ IsConfig ts i := by
  simp [Marked, IsConfig, Candidate]

/-- A role belongs to an opening delimiter: to a parenthesis that of a call, to a brace the
others. -/
theorem Candidate.kindAt_eq {r : Role} {i : Nat} (h : Candidate mode ts r i) :
    kindAt ts i = some (.opening (if r = .call then .paren else .brace)) := by
  cases r with
  | plain => exact h.elim
  | call => exact h.2.1
  | config => exact h.2.1
  | rules => exact h.1.1

namespace ScanState

/-- Whether the delimiter with a role has been passed. -/
def seen (s : ScanState) : Role → Bool
  | .plain => false
  | .call => s.callSeen
  | .config => s.configSeen
  | .rules => s.rulesSeen

/-- The role of a delimiter that is opened behind the tokens `before`. -/
def openingRole (s : ScanState) (d : Delimiter) (before : List Token) : Role :=
  match d with
  | .paren => if s.mode = .call ∧ !s.callSeen ∧ followsName "grammar" before then .call else .plain
  | .brace =>
    if s.mode = .call ∧ s.topRole = .call ∧ !s.configSeen then .config
    else if (s.mode = .call → s.topRole = .config) ∧ !s.rulesSeen ∧ followsKey "rules" before then
      .rules
    else .plain
  | .bracket => .plain

/-- Notes that the delimiter with a role has been passed. -/
def note (s : ScanState) : Role → ScanState
  | .plain => s
  | .call => { s with callSeen := true }
  | .config => { s with configSeen := true }
  | .rules => { s with rulesSeen := true }

/-- **What opening a delimiter does**: it settles the role, notes it, and pushes a frame. -/
theorem opened_eq (s : ScanState) (d : Delimiter) (before : List Token) (t : Token) :
    s.opened d before t =
      (s.note (s.openingRole d before)).push d (s.openingRole d before) t.span := by
  cases d with
  | paren =>
    rw [opened, openingRole]
    split <;> rfl
  | brace =>
    rw [opened, openingRole]
    split
    · rfl
    · split <;> rfl
  | bracket => rfl

theorem openingRole_eq_call_iff (s : ScanState) (before : List Token) :
    s.openingRole .paren before = .call ↔
      (s.mode = .call ∧ followsName "grammar" before = true) ∧ ¬ s.callSeen = true := by
  rw [openingRole]
  grind

theorem openingRole_eq_config_iff (s : ScanState) (before : List Token) :
    s.openingRole .brace before = .config ↔
      (s.mode = .call ∧ s.topRole = .call) ∧ ¬ s.configSeen = true := by
  rw [openingRole]
  grind

/-- The two conditions on braces do not hold of one brace. -/
theorem openingRole_eq_rules_iff (s : ScanState) (before : List Token) :
    s.openingRole .brace before = .rules ↔
      (followsKey "rules" before = true ∧ (s.mode = .call → s.topRole = .config)) ∧
        ¬ s.rulesSeen = true := by
  rw [openingRole]
  grind

/-- A role belongs to one kind of delimiter. -/
theorem delimiter_of_openingRole {s : ScanState} {d : Delimiter} {before : List Token} {r : Role}
    (h : s.openingRole d before = r) (hr : r ≠ .plain) :
    d = if r = .call then .paren else .brace := by
  cases d with
  | paren =>
    rw [openingRole] at h
    split at h
    · simp [← h]
    · exact absurd h.symm hr
  | brace =>
    rw [openingRole] at h
    split at h
    · simp [← h]
    · split at h
      · simp [← h]
      · exact absurd h.symm hr
  | bracket => exact absurd h.symm hr

theorem seen_note (s : ScanState) (r r' : Role) (hr' : r' ≠ .plain) :
    (s.note r).seen r' = true ↔ s.seen r' = true ∨ r = r' := by
  cases r <;> cases r' <;> simp_all [note, seen]

/-- **What closing a delimiter does** if the innermost one is of its kind. -/
theorem closed_eq {s : ScanState} {f : Frame} {outer : List Frame} {d : Delimiter}
    (hstack : s.stack = f :: outer) (hf : f.delimiter = d) (t : Token) :
    s.closed d t = { s with stack := outer } := by
  simp [closed, hstack, hf]

end ScanState

/-! ## The walk that counts -/

/-- Where the rules are looked for in the end. -/
def scanMode (ts : List Token) : Mode :=
  if (ScanState.run { mode := .call } [] ts).callSeen then .call else .anywhere

/-- The scanner walks over the tokens once or twice; the last walk is the one that counts. -/
theorem scanTokens_eq_run (ts : List Token) :
    scanTokens ts = ScanState.run { mode := scanMode ts } [] ts := by
  rw [scanTokens, scanMode]
  split
  · rfl
  · rfl

end Concord.Script
