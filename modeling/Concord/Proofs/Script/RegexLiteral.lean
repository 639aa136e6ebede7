import Concord.Proofs.Script.Opaque

/-!
# Regular expression literals are read whole

Where a regular expression literal ends is found by a walk with two marks, one for brackets and one
for a backslash.  It can be said by a grammar instead: the body of a literal is a row of characters,
escapes and classes, and a class holds characters and escapes of its own.

* `RegexItems` — the bodies of literals; `regexBody_eq_iff` says that the walk finds the end of such
  a body, and of nothing else.
* `RegexLiteral` — a literal with its flags, in front of a text that does not go on with them.
  `regexRest_eq_iff` says when there is one, and what it is.
* `DividesAt` — where a slash begins no comment, so that it divides or begins a literal.

`regexLiteral_read` puts these together with what the tokens of a source show of a literal.
-/

set_option autoImplicit false

namespace Concord.Script

/-! ## The grammar of literals -/

/-- What stands between the brackets of a class. -/
def ClassItems : List Char → Prop := Escaped (· ∉ ['\n', ']', '\\']) (· ≠ '\n')

/-- What stands between the slashes of a literal. -/
inductive RegexItems : List Char → Prop
  | nil : RegexItems []
  | plain {c : Char} {cs : List Char} (hc : c ∉ ['\n', '/', '[', '\\']) (h : RegexItems cs) :
    RegexItems (c :: cs)
  | pair {c : Char} {cs : List Char} (hc : c ≠ '\n') (h : RegexItems cs) :
    RegexItems ('\\' :: c :: cs)
  | bracketed {items cs : List Char} (hitems : ClassItems items) (h : RegexItems cs) :
    RegexItems ('[' :: (items ++ ']' :: cs))

/-- A literal in front of a text: two slashes with a body between them, and as many letters as there
are. -/
structure RegexLiteral (literal rest : List Char) : Prop where
  written : ∃ body flags, RegexItems body ∧ (∀ c ∈ flags, c.isAlpha = true) ∧
    literal = '/' :: (body ++ '/' :: flags)
  noFlag : ∀ c ∈ rest.head?, c.isAlpha = false

/-! ## The walk -/

/-- What the walk passes up to the closing slash, within a class or outside of one. -/
def RegexEnd (inClass : Bool) (cs : List Char) : Prop :=
  if inClass then
    ∃ items body, ClassItems items ∧ RegexItems body ∧ cs = items ++ ']' :: (body ++ ['/'])
  else ∃ body, RegexItems body ∧ cs = body ++ ['/']

namespace RegexEnd

variable {inClass : Bool} {c : Char} {cs : List Char}

theorem pair (hc : c ≠ '\n') (h : RegexEnd inClass cs) : RegexEnd inClass ('\\' :: c :: cs) := by
  cases inClass with
  | false =>
    obtain ⟨body, hbody, rfl⟩ := h
    exact ⟨'\\' :: c :: body, .pair hc hbody, rfl⟩
  | true =>
    obtain ⟨items, body, hitems, hbody, rfl⟩ := h
    exact ⟨'\\' :: c :: items, body, .pair hc hitems, hbody, rfl⟩

theorem opening (h : RegexEnd true cs) : RegexEnd inClass ('[' :: cs) := by
  obtain ⟨items, body, hitems, hbody, rfl⟩ := h
  cases inClass with
  | false => exact ⟨'[' :: (items ++ ']' :: body), .bracketed hitems hbody, by simp⟩
  | true => exact ⟨'[' :: items, body, .plain (by decide) hitems, hbody, rfl⟩

theorem closing (h : RegexEnd false cs) : RegexEnd inClass (']' :: cs) := by
  obtain ⟨body, hbody, rfl⟩ := h
  cases inClass with
  | false => exact ⟨']' :: body, .plain (by decide) hbody, rfl⟩
  | true => exact ⟨[], body, .nil, hbody, rfl⟩

theorem plain (hc : c ∉ ['\n', '\\', '[', ']']) (hslash : c = '/' → inClass = true)
    (h : RegexEnd inClass cs) : RegexEnd inClass (c :: cs) := by
  simp only [List.mem_cons, List.not_mem_nil, or_false, not_or] at hc
  cases inClass with
  | false =>
    obtain ⟨body, hbody, rfl⟩ := h
    have hne : c ≠ '/' := fun heq ↦ Bool.false_ne_true (hslash heq)
    exact ⟨c :: body, .plain (by simp [hc, hne]) hbody, rfl⟩
  | true =>
    obtain ⟨items, body, hitems, hbody, rfl⟩ := h
    exact ⟨c :: items, body, .plain (by simp [hc]) hitems, hbody, rfl⟩

end RegexEnd

/-- What the walk finds when it has passed some characters. -/
def onward (front : List Char) : Option (List Char × List Char) → Option (List Char × List Char) :=
  Option.map fun (body, rest) ↦ (front ++ body, rest)

theorem onward_append (front front' : List Char) (found : Option (List Char × List Char)) :
    onward front (onward front' found) = onward (front ++ front') found := by
  cases found <;> simp [onward]

theorem exists_of_onward {c : Char} {found : Option (List Char × List Char)} {body rest : List Char}
    (h : onward [c] found = some (body, rest)) :
    ∃ tail, found = some (tail, rest) ∧ body = c :: tail := by
  obtain ⟨⟨tail, _⟩, htail, he⟩ := Option.map_eq_some_iff.mp h
  cases he
  exact ⟨tail, htail, rfl⟩

/-- The walk passes what ends a literal.  Behind a backslash, it passes one more character. -/
theorem regexEnd_of_regexBody {inClass escaped : Bool} {cs body rest : List Char}
    (h : regexBody inClass escaped cs = some (body, rest)) :
    if escaped then ∃ c tail, c ≠ '\n' ∧ RegexEnd inClass tail ∧ body = c :: tail
    else RegexEnd inClass body := by
  induction inClass, escaped, cs using regexBody.induct generalizing body with
  | case1 inClass escaped => simp [regexBody] at h
  | case2 inClass escaped cs _ => simp [regexBody] at h
  | case3 inClass c cs hc ih =>
    simp only [regexBody, if_neg hc, if_true] at h
    obtain ⟨tail, htail, rfl⟩ := exists_of_onward h
    exact ⟨c, tail, hc, ih inClass false htail, rfl⟩
  | case4 inClass escaped cs hescaped _ ih =>
    rw [if_neg hescaped]
    simp only [regexBody, if_neg hescaped, if_true] at h
    obtain ⟨_, htail, rfl⟩ := exists_of_onward h
    obtain ⟨c, tail, hc, hend, rfl⟩ := ih inClass true htail
    exact hend.pair hc
  | case5 inClass escaped cs hescaped _ _ ih =>
    rw [if_neg hescaped]
    simp only [regexBody, if_neg hescaped, if_true] at h
    obtain ⟨tail, htail, rfl⟩ := exists_of_onward h
    exact RegexEnd.opening (ih true false htail)
  | case6 inClass escaped cs hescaped _ _ _ ih =>
    rw [if_neg hescaped]
    simp only [regexBody, if_neg hescaped, if_true] at h
    obtain ⟨tail, htail, rfl⟩ := exists_of_onward h
    exact RegexEnd.closing (ih false false htail)
  | case7 inClass escaped c cs hbreak hescaped hbackslash hopen hclose hslash _ =>
    rw [if_neg hescaped]
    simp only [regexBody, if_neg hbreak, if_neg hescaped, if_neg hbackslash, if_neg hopen,
      if_neg hclose, if_pos hslash] at h
    cases h
    obtain ⟨rfl, hclass⟩ := hslash
    obtain rfl : inClass = false := by simpa using hclass
    exact ⟨[], .nil, rfl⟩
  | case8 inClass escaped c cs hbreak hescaped hbackslash hopen hclose hslash ih =>
    rw [if_neg hescaped]
    simp only [regexBody, if_neg hbreak, if_neg hescaped, if_neg hbackslash, if_neg hopen,
      if_neg hclose, if_neg hslash] at h
    obtain ⟨tail, htail, rfl⟩ := exists_of_onward h
    have hclass : c = '/' → inClass = true := fun heq ↦ by simpa [heq] using hslash
    have hplain : c ∉ ['\n', '\\', '[', ']'] := by simp [hbreak, hbackslash, hopen, hclose]
    exact RegexEnd.plain hplain hclass (ih inClass false htail)

section Walk

variable {inClass : Bool} {c : Char}

theorem regexBody_pair (hc : c ≠ '\n') (cs : List Char) :
    regexBody inClass false ('\\' :: c :: cs) = onward ['\\', c] (regexBody inClass false cs) := by
  have hbackslash : regexBody inClass false ('\\' :: c :: cs) =
      onward ['\\'] (regexBody inClass true (c :: cs)) := rfl
  have hnext : regexBody inClass true (c :: cs) = onward [c] (regexBody inClass false cs) := by
    simp only [regexBody, if_neg hc, if_true]
    rfl
  rw [hbackslash, hnext, onward_append]
  rfl

theorem regexBody_plain (hc : c ∉ ['\n', '\\', '[', ']']) (hslash : c = '/' → inClass = true)
    (cs : List Char) :
    regexBody inClass false (c :: cs) = onward [c] (regexBody inClass false cs) := by
  simp only [List.mem_cons, List.not_mem_nil, or_false, not_or] at hc
  obtain ⟨hbreak, hbackslash, hopen, hclose⟩ := hc
  have hnot : ¬ (c = '/' ∧ (!inClass) = true) := by
    rintro ⟨heq, hclass⟩
    simp [hslash heq] at hclass
  simp only [regexBody, if_neg hbreak, Bool.false_eq_true, if_false, if_neg hbackslash,
    if_neg hopen, if_neg hclose, if_neg hnot]
  rfl

end Walk

theorem regexBody_classItems {items : List Char} (h : ClassItems items) (cs : List Char) :
    regexBody true false (items ++ ']' :: cs) =
      onward (items ++ [']']) (regexBody false false cs) := by
  induction h with
  | nil => rfl
  | @plain c items hc _ ih =>
    have hstep : regexBody true false (c :: (items ++ ']' :: cs)) =
        onward [c] (regexBody true false (items ++ ']' :: cs)) := by
      by_cases hopen : c = '['
      · rw [hopen]
        rfl
      · refine regexBody_plain ?_ (fun _ ↦ rfl) _
        simp only [List.mem_cons, List.not_mem_nil, or_false, not_or] at hc ⊢
        exact ⟨hc.1, hc.2.2, hopen, hc.2.1⟩
    rw [List.cons_append, hstep, ih, onward_append]
    rfl
  | @pair c items hc _ ih =>
    rw [List.cons_append, List.cons_append, regexBody_pair hc, ih, onward_append]
    rfl

theorem regexBody_regexItems {body : List Char} (h : RegexItems body) (rest : List Char) :
    regexBody false false (body ++ '/' :: rest) = some (body ++ ['/'], rest) := by
  induction h with
  | nil => rfl
  | @plain c body hc _ ih =>
    have hstep : regexBody false false (c :: (body ++ '/' :: rest)) =
        onward [c] (regexBody false false (body ++ '/' :: rest)) := by
      simp only [List.mem_cons, List.not_mem_nil, or_false, not_or] at hc
      obtain ⟨hbreak, hslash, hopen, hbackslash⟩ := hc
      by_cases hclose : c = ']'
      · rw [hclose]
        rfl
      · exact regexBody_plain (by simp [hbreak, hopen, hbackslash, hclose])
          (fun heq ↦ absurd heq hslash) _
    rw [List.cons_append, hstep, ih]
    rfl
  | @pair c body hc _ ih =>
    rw [List.cons_append, List.cons_append, regexBody_pair hc, ih]
    rfl
  | @bracketed items body hitems _ ih =>
    have hopen : regexBody false false ('[' :: (items ++ ']' :: (body ++ '/' :: rest))) =
        onward ['['] (regexBody true false (items ++ ']' :: (body ++ '/' :: rest))) := rfl
    rw [List.cons_append, List.append_assoc, List.cons_append, hopen,
      regexBody_classItems hitems, ih]
    simp [onward]

/-- **The walk finds the closing slash** of a body, and of nothing else. -/
theorem regexBody_eq_iff {cs body rest : List Char} :
    regexBody false false cs = some (body ++ ['/'], rest) ↔
      RegexItems body ∧ cs = body ++ '/' :: rest := by
  constructor
  · intro h
    obtain ⟨body', hbody, heq⟩ := regexEnd_of_regexBody h
    obtain rfl := List.append_cancel_right heq
    exact ⟨hbody, by simpa using (regexBody_append h).symm⟩
  · rintro ⟨hbody, rfl⟩
    exact regexBody_regexItems hbody rest

/-! ## Whole literals -/

/-- A literal is read with its flags, and where none begins, nothing is read. -/
theorem regexRest_eq_iff {cs body rest : List Char} :
    regexRest cs = some (body, rest) ↔ RegexLiteral ('/' :: body) rest ∧ cs = body ++ rest := by
  constructor
  · intro h
    refine ⟨?_, (regexRest_append h).symm⟩
    obtain ⟨⟨front, behind⟩, hfront, he⟩ := Option.map_eq_some_iff.mp h
    obtain ⟨rfl, rfl⟩ := Prod.mk.inj he
    obtain ⟨items, hitems, rfl⟩ := regexEnd_of_regexBody hfront
    have hflags := List.all_eq_true.mp (List.all_takeWhile (p := Char.isAlpha) (l := behind))
    refine ⟨⟨items, _, hitems, hflags, by simp⟩, fun c hc ↦ ?_⟩
    have hhead := List.head?_dropWhile_not Char.isAlpha behind
    rw [hc] at hhead
    simpa using hhead
  · rintro ⟨⟨⟨items, flags, hitems, hflags, heq⟩, hrest⟩, rfl⟩
    obtain rfl : body = items ++ '/' :: flags := (List.cons.inj heq).2
    obtain ⟨htake, hdrop⟩ := run_eq hflags hrest
    rw [regexRest, List.append_assoc, List.cons_append, regexBody_eq_iff.mpr ⟨hitems, rfl⟩]
    dsimp only [Option.map_some]
    rw [htake, hdrop, List.append_assoc, List.singleton_append]

/-- The text begins with a slash that begins no comment. -/
structure DividesAt (text : List Char) : Prop where
  slash : ['/'] <+: text
  noLine : ¬ ['/', '/'] <+: text
  noBlock : ∀ body, ¬ ['/', '*'] ++ body ++ ['*', '/'] <+: text

theorem exists_of_blockBody {cs body rest : List Char} (h : blockBody cs = some (body, rest)) :
    ∃ front, body = front ++ ['*', '/'] := by
  induction cs generalizing body with
  | nil => simp [blockBody] at h
  | cons c cs ih =>
    rw [blockBody] at h
    split at h
    · cases h
      exact ⟨[], rfl⟩
    · obtain ⟨⟨tail, _⟩, htail, he⟩ := Option.map_eq_some_iff.mp h
      cases he
      obtain ⟨front, rfl⟩ := ih htail
      exact ⟨c :: front, rfl⟩

/-- What begins with a slash is no comment there. -/
theorem DividesAt.takeSlashed_eq {cs : List Char} (h : DividesAt ('/' :: cs))
    (previous : Option Lexeme) : takeSlashed previous cs = takeSlash previous cs := by
  have hline : ¬ cs.head? = some '/' := by
    intro hhead
    obtain ⟨tail, rfl⟩ := List.head?_eq_some_iff.mp hhead
    exact h.noLine ⟨tail, rfl⟩
  rw [takeSlashed, if_neg hline]
  split
  · rename_i hhead
    obtain ⟨tail, rfl⟩ := List.head?_eq_some_iff.mp hhead
    split
    · rename_i body rest hblock
      obtain ⟨front, rfl⟩ := exists_of_blockBody hblock
      have happend : front ++ ['*', '/'] ++ rest = tail := blockBody_append hblock
      refine absurd ⟨rest, ?_⟩ (h.noBlock front)
      simp [← happend]
    · rfl
  · rfl

/-- **A regular expression literal is read whole.**  Its length is found for every text that begins
with one, and for no other; and wherever the lexer comes to a slash that begins no comment, behind a
token that an expression may follow, a literal that stands there is one token, and the lexer goes on
right behind it. -/
theorem regexLiteral_read :
    (∀ (cs : List Char) (n : Nat),
        (regexRest cs).map (fun found ↦ utf8Length ('/' :: found.1)) = some n ↔
          ∃ literal rest, RegexLiteral literal rest ∧ '/' :: cs = literal ++ rest ∧
            utf8Length literal = n) ∧
      ∀ (source : String) (before : List Lexeme) (literal rest : List Char),
        before <+: pieces none source.toList →
          source.toList = before.flatMap Lexeme.text ++ literal ++ rest →
            DividesAt (literal ++ rest) → allowsRegex (lastSignificant before) = true →
              RegexLiteral literal rest →
                before ++ [⟨.regex, literal⟩] <+: pieces none source.toList ∧
                  SeenAs source (before.flatMap Lexeme.text) literal (some .regex) := by
  constructor
  · intro cs n
    constructor
    · intro h
      obtain ⟨⟨body, rest⟩, hfound, hn⟩ := Option.map_eq_some_iff.mp h
      obtain ⟨hliteral, rfl⟩ := regexRest_eq_iff.mp hfound
      exact ⟨'/' :: body, rest, hliteral, rfl, hn⟩
    · rintro ⟨_, rest, hliteral, heq, rfl⟩
      obtain ⟨body, flags, hbody, hflags, rfl⟩ := hliteral.written
      have hcs : cs = body ++ '/' :: flags ++ rest := (List.cons.inj heq).2
      rw [regexRest_eq_iff.mpr ⟨hliteral, hcs⟩]
      rfl
  · intro source before literal rest hbefore hsource hdivides hallows hliteral
    obtain ⟨body, flags, hbody, hflags, rfl⟩ := hliteral.written
    have hstep : step (lastSignificant before) '/' (body ++ '/' :: flags ++ rest) =
        (⟨.regex, '/' :: (body ++ '/' :: flags)⟩, rest) := by
      have hslash : DividesAt ('/' :: (body ++ '/' :: flags ++ rest)) := hdivides
      show takeSlashed (lastSignificant before) (body ++ '/' :: flags ++ rest) = _
      rw [hslash.takeSlashed_eq, takeSlash, if_pos hallows,
        regexRest_eq_iff.mpr ⟨hliteral, rfl⟩]
    rw [List.append_assoc] at hsource
    exact seenAs_of_step hbefore hsource hstep (by simp)

/-- A class that holds a slash and a character of two bytes, and a slash behind a backslash: the
literal has flags, and the parenthesis behind it is no part of it. -/
theorem regexLiteral_read_class :
    let source := "token(/[/é]\\/+/gi)"
    let before : List Lexeme := [⟨.ident, "token".toList⟩, ⟨.opening .paren, ['(']⟩]
    let literal := "/[/é]\\/+/gi".toList
    before <+: pieces none source.toList ∧
      source.toList = before.flatMap Lexeme.text ++ literal ++ [')'] ∧
        DividesAt (literal ++ [')']) ∧ allowsRegex (lastSignificant before) = true ∧
          RegexLiteral literal [')'] ∧
            before ++ [⟨.regex, literal⟩] <+: pieces none source.toList := by
  intro source before literal
  have hbefore : before <+: pieces none source.toList := by decide +kernel
  have hsource : source.toList = before.flatMap Lexeme.text ++ literal ++ [')'] := by
    decide +kernel
  have hdivides : DividesAt (literal ++ [')']) :=
    { slash := by decide +kernel
      noLine := by decide +kernel
      noBlock := fun body h ↦ by
        have hsecond := (List.cons_prefix_cons.mp (List.cons_prefix_cons.mp h).2).1
        exact absurd hsecond (by decide) }
  have hallows : allowsRegex (lastSignificant before) = true := by decide +kernel
  have hread : regexRest (literal.tail ++ [')']) = some (literal.tail, [')']) := by decide +kernel
  have hliteral : RegexLiteral literal [')'] := (regexRest_eq_iff.mp hread).1
  exact ⟨hbefore, hsource, hdivides, hallows, hliteral,
    (regexLiteral_read.2 source before literal [')'] hbefore hsource hdivides hallows hliteral).1⟩

end Concord.Script
