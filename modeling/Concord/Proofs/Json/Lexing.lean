import Concord.Json.Printer
import Concord.Proofs.Run
import Concord.Proofs.Spelling

/-!
# Cutting written JSON

A `Lexeme` is a token as one writes it.  `tokensFrom_of_writes` says that a text that is written
from lexemes is cut into their tokens again, wherever there are blanks between them.

Behind it are two facts on single lexemes: a string is escaped so that its characters come back
(`takeString_escaped`, `decode_escaped`), and a whole number of 64 bits is read from its digits
(`takeNumeral_digits`, `value_digits`).
-/

set_option autoImplicit false

namespace Concord.Json

/-! ## Strings -/

/-- The piece that is cut from an escaped character. -/
def pieceOf (c : Char) : Piece :=
  match c with
  | '"' | '\\' | '\x08' | '\x0c' | '\n' | '\r' | '\t' => .letter c
  | c => if c.toNat < 0x20 then .unit c.toNat else .plain c

theorem hexValue?_hexDigit : ∀ n < 16, hexValue? (hexDigit n) = some n := by
  decide

theorem codeUnit?_hexDigit {n : Nat} (hn : n < 0x20) :
    codeUnit? '0' '0' (hexDigit (n / 16)) (hexDigit (n % 16)) = some n := by
  have h0 : hexValue? '0' = some 0 := rfl
  rw [codeUnit?, h0, hexValue?_hexDigit _ (by omega), hexValue?_hexDigit _ (by omega)]
  simp
  omega

/-- An escaped character is cut into its piece. -/
theorem takeString_escapeChar (c : Char) (cs : List Char) :
    takeString (escapeChar c ++ cs) =
      (pieceOf c :: (takeString cs).1, (takeString cs).2.1, (takeString cs).2.2) := by
  unfold escapeChar pieceOf
  split
  case h_8 =>
    by_cases hc : c.toNat < 0x20
    · simp only [if_pos hc, List.cons_append, List.nil_append, takeString, codeUnit?_hexDigit hc]
    · simp only [if_neg hc]
      rw [List.singleton_append, takeString.eq_def]
      split
      case h_6 heq =>
        cases heq
        rw [if_neg hc]
      all_goals simp_all
  all_goals simp [takeString, letterEscape?]

/-- The characters of an escaped string are cut into their pieces, up to the closing quote. -/
theorem takeString_escaped (s rest : List Char) :
    takeString (s.flatMap escapeChar ++ '"' :: rest) = (s.map pieceOf, .quote, rest) := by
  induction s with
  | nil => simp [takeString]
  | cons c s ih =>
    rw [List.flatMap_cons, List.append_assoc, takeString_escapeChar, ih, List.map_cons]

theorem decode_pieceOf (c : Char) (start : Nat) (ps : List Piece) :
    ∃ stop, Piece.decode .quote start (pieceOf c :: ps) =
      (c :: ·) <$> Piece.decode .quote stop ps := by
  unfold pieceOf
  split
  case h_8 =>
    split
    · rename_i hc
      refine ⟨start + 6, ?_⟩
      have htrailing : isTrailing c.toNat = false := by
        simp [isTrailing]
        omega
      have hleading : isLeading c.toNat = false := by
        simp [isLeading]
        omega
      rw [Piece.decode.eq_def]
      simp [htrailing, hleading, Char.ofNat_toNat]
    · exact ⟨_, by rw [Piece.decode]⟩
  all_goals exact ⟨_, by rw [Piece.decode]⟩

/-- The pieces of an escaped string stand for its characters. -/
theorem decode_escaped (s : List Char) (start : Nat) :
    Piece.decode .quote start (s.map pieceOf) = .ok s := by
  induction s generalizing start with
  | nil => rfl
  | cons c s ih =>
    obtain ⟨stop, h⟩ := decode_pieceOf c start (s.map pieceOf)
    rw [List.map_cons, h, ih]
    rfl

/-! ## Whole numbers -/

/-- A whole number of 64 bits, so that it is read as it is written. -/
def Number.isExact : Number → Bool
  | natural n => n ≤ greatestNatural
  | negative n => 0 < n && n ≤ 0x8000000000000000
  | float _ => false

theorem le_ofDigitChars (cs : List Char) (n : Nat) : n ≤ Nat.ofDigitChars 10 cs n := by
  induction cs generalizing n with
  | nil => exact Nat.le_refl n
  | cons c cs ih =>
    have hstep : n ≤ 10 * n + (c.toNat - '0'.toNat) := by omega
    exact Nat.le_trans hstep (ih _)

/-- Digits are absorbed as long as what they come to is not too great. -/
theorem absorb_eq {most n : Nat} {cs : List Char} (h : Nat.ofDigitChars 10 cs n ≤ most) :
    absorb most n cs = (Nat.ofDigitChars 10 cs n, 0) := by
  induction cs generalizing n with
  | nil => rfl
  | cons c cs ih =>
    have hstep : Nat.ofDigitChars 10 (c :: cs) n =
        Nat.ofDigitChars 10 cs (n * 10 + digitValue c) := by
      rw [Nat.mul_comm]
      rfl
    rw [hstep] at h ⊢
    have hle := Nat.le_trans (le_ofDigitChars cs (n * 10 + digitValue c)) h
    rw [absorb, if_pos hle, ih h]

/-- A number other than zero does not begin with a zero. -/
theorem eq_zero_of_toDigits_eq_cons {n : Nat} {ds : List Char}
    (h : Nat.toDigits 10 n = '0' :: ds) : n = 0 := by
  induction n using Nat.strongRecOn generalizing ds with
  | ind n ih =>
    by_cases hn : n < 10
    · have hzero : ∀ n < 10, n.digitChar = '0' → n = 0 := by decide
      rw [Nat.toDigits_of_lt_base hn] at h
      exact hzero n hn (List.cons.inj h).1
    · obtain ⟨d, ds', hds⟩ := List.exists_cons_of_ne_nil (@Nat.toDigits_ne_nil (n / 10) 10)
      rw [Nat.toDigits_of_base_le (by omega) (by omega), hds, List.cons_append,
        List.cons.injEq] at h
      rw [h.1] at hds
      have hdiv := ih (n / 10) (by omega) hds
      omega

theorem isDigit_of_mem_digits (n : Nat) : ∀ c ∈ Nat.toDigits 10 n, c.isDigit = true :=
  fun c hc ↦ Nat.isDigit_of_mem_toDigits (by decide) (by decide) hc

/-- What a number goes on with. -/
def continuesNumber (c : Char) : Bool := c.isDigit || c == '.' || c == 'e' || c == 'E'

/-- The digits of a number are read as what they are. -/
theorem takeUnsigned_digits (size start n : Nat) (negative : Bool) {rest : List Char}
    (hrest : ∀ c ∈ rest.head?, continuesNumber c = false) :
    takeUnsigned size start negative (Nat.toDigits 10 n ++ rest) =
      .ok ⟨⟨negative, Nat.toDigits 10 n, [], none⟩, (Nat.toDigits 10 n).length, rest⟩ := by
  have hdigits := isDigit_of_mem_digits n
  have hstop : ∀ c ∈ rest.head?, c.isDigit = false := by
    intro c hc
    have := hrest c hc
    simp only [continuesNumber, Bool.or_eq_false_iff] at this
    exact this.1.1.1
  have hwhole : takeWhole size start (Nat.toDigits 10 n ++ rest) =
      .ok ⟨Nat.toDigits 10 n, (Nat.toDigits 10 n).length, rest⟩ := by
    unfold takeWhole
    split
    · rename_i cs heq
      -- only zero begins with a zero
      obtain ⟨d, ds, hds⟩ := List.exists_cons_of_ne_nil (@Nat.toDigits_ne_nil n 10)
      rw [hds, List.cons_append, List.cons.injEq] at heq
      rw [heq.1] at hds
      obtain rfl := eq_zero_of_toDigits_eq_cons hds
      obtain rfl : ds = [] := (List.cons.inj hds).2.symm
      obtain rfl : rest = cs := heq.2
      have hhead : ¬ (rest.head?.any Char.isDigit) = true := by
        cases rest with
        | nil => simp
        | cons c rest => simp [hstop c rfl]
      rw [if_neg hhead]
      rfl
    · obtain ⟨htake, hdrop⟩ := run_eq hdigits hstop
      rw [takeDigits, htake, hdrop]
      simp
  have hfraction (start : Nat) : takeFraction size start rest = .ok ⟨[], 0, rest⟩ := by
    unfold takeFraction
    split
    · have := hrest '.' rfl
      contradiction
    · rfl
  have hexponent (start : Nat) : takeExponent size start rest = .ok ⟨none, 0, rest⟩ := by
    unfold takeExponent
    split
    · rfl
    · rename_i c cs
      have hc := hrest c rfl
      simp only [continuesNumber, Bool.or_eq_false_iff, beq_eq_false_iff_ne] at hc
      rw [if_neg (by simp [hc])]
  rw [takeUnsigned, hwhole]
  simp [bind, Except.bind, hfraction, hexponent, pure, Except.pure]

theorem takeNumeral_digits (size start n : Nat) {rest : List Char}
    (hrest : ∀ c ∈ rest.head?, continuesNumber c = false) :
    takeNumeral size start (Nat.toDigits 10 n ++ rest) =
      .ok ⟨⟨false, Nat.toDigits 10 n, [], none⟩, (Nat.toDigits 10 n).length, rest⟩ := by
  unfold takeNumeral
  split
  · rename_i cs heq
    -- a digit is no sign
    obtain ⟨d, ds, hds⟩ := List.exists_cons_of_ne_nil (@Nat.toDigits_ne_nil n 10)
    have hd := isDigit_of_mem_digits n d (by rw [hds]; exact List.mem_cons_self)
    rw [hds, List.cons_append, List.cons.injEq] at heq
    rw [heq.1] at hd
    contradiction
  · exact takeUnsigned_digits size start n false hrest

theorem leading_digits {n : Nat} (hn : n ≤ greatestNatural) (negative : Bool) :
    (Numeral.mk negative (Nat.toDigits 10 n) [] none).leading = (n, 0) := by
  have hdigits : Nat.ofDigitChars 10 (Nat.toDigits 10 n) 0 = n :=
    Nat.ofDigitChars_toDigits (by decide) (by decide)
  rw [Numeral.leading, absorb_eq (by rw [hdigits]; exact hn), hdigits]
  rfl

theorem value_natural {n : Nat} (hn : n ≤ greatestNatural) :
    (Numeral.mk false (Nat.toDigits 10 n) [] none).value = .ok (.natural n) := by
  rw [Numeral.value, leading_digits hn]
  rfl

theorem value_negative {n : Nat} (hpos : 0 < n) (hn : n ≤ 0x8000000000000000) :
    (Numeral.mk true (Nat.toDigits 10 n) [] none).value = .ok (.negative n) := by
  have hle : n ≤ greatestNatural := Nat.le_trans hn (by decide)
  rw [Numeral.value, leading_digits hle]
  simp [hpos, hn]

/-! ## Lexemes -/

/-- A token as one writes it. -/
inductive Lexeme where
  | listStart | listEnd | objectStart | objectEnd | comma | colon
  | null
  | bool (b : Bool)
  | number (n : Number)
  | string (s : String)

namespace Lexeme

/-- The characters of the lexeme. -/
def text : Lexeme → List Char
  | listStart => ['[']
  | listEnd => [']']
  | objectStart => ['\x7b']
  | objectEnd => ['\x7d']
  | comma => [',']
  | colon => [':']
  | null => ['n', 'u', 'l', 'l']
  | bool true => ['t', 'r', 'u', 'e']
  | bool false => ['f', 'a', 'l', 's', 'e']
  | number n => n.write.toList
  | string s => (writeString s).toList

/-- The token of the lexeme. -/
def token : Lexeme → Token
  | listStart => .listStart
  | listEnd => .listEnd
  | objectStart => .objectStart
  | objectEnd => .objectEnd
  | comma => .comma
  | colon => .colon
  | null => .scalar .null
  | bool b => .scalar (.bool b)
  | number n => .scalar (.number (.ok n))
  | string s => .scalar (.string (.ok s))

/-- Whether the lexeme goes on with a character. -/
def absorbs : Lexeme → Char → Bool
  | number _, c => continuesNumber c
  | _, _ => false

/-- Whether the lexeme is read as it is written. -/
def isExact : Lexeme → Bool
  | number n => n.isExact
  | _ => true

end Lexeme

/-- How JSON is written. -/
def spelling : Spelling Lexeme := ⟨Lexeme.text, Lexeme.absorbs, isBlank⟩

theorem takeToken_digit {c : Char} (hc : c = '-' ∨ c.isDigit = true) (size start : Nat)
    (cs : List Char) : takeToken size start c cs = takeNumber size start c cs := by
  unfold takeToken
  split
  case h_11 => rw [if_pos hc]
  all_goals exact absurd hc (by decide)

theorem not_isBlank_of_isDigit {c : Char} (hc : c.isDigit = true) : isBlank c = false := by
  rw [Bool.eq_false_iff]
  intro hblank
  simp only [isBlank, Bool.or_eq_true, beq_iff_eq] at hblank
  obtain ((rfl | rfl) | rfl) | rfl := hblank <;> contradiction

theorem takeNumber_eq {size start : Nat} {c : Char} {cs rest : List Char} {x : Numeral}
    {n : Number} (htake : takeNumeral size start (c :: (cs ++ rest)) = .ok ⟨x, cs.length + 1, rest⟩)
    (hvalue : x.value = .ok n) :
    takeNumber size start c (cs ++ rest) = ⟨.scalar (.number (.ok n)), cs.length + 1, rest⟩ := by
  have hmap (f : Nat → Fault) : x.value.mapError f = .ok n := by
    rw [hvalue]
    rfl
  simp [takeNumber, htake, hmap]

/-- A whole number is read from its digits. -/
theorem takeToken_number {n : Number} (hn : n.isExact = true) {rest : List Char}
    (hrest : ∀ c ∈ rest.head?, continuesNumber c = false) (size start : Nat) :
    ∃ c cs width, (Lexeme.number n).text = c :: cs ∧ isBlank c = false ∧
      takeToken size start c (cs ++ rest) = ⟨(Lexeme.number n).token, width, rest⟩ := by
  cases n with
  | float x => contradiction
  | natural n =>
    have hle : n ≤ greatestNatural := by simpa [Number.isExact] using hn
    have htext : (Lexeme.number (.natural n)).text = Nat.toDigits 10 n := Nat.toList_repr
    obtain ⟨c, cs, hcs⟩ := List.exists_cons_of_ne_nil (@Nat.toDigits_ne_nil n 10)
    have hc := isDigit_of_mem_digits n c (by rw [hcs]; exact List.mem_cons_self)
    have hlength : cs.length + 1 = (Nat.toDigits 10 n).length := by rw [hcs]; rfl
    refine ⟨c, cs, cs.length + 1, by rw [htext, hcs], not_isBlank_of_isDigit hc, ?_⟩
    rw [takeToken_digit (.inr hc)]
    refine takeNumber_eq ?_ (value_natural hle)
    rw [← List.cons_append, ← hcs, hlength]
    exact takeNumeral_digits size start n hrest
  | negative n =>
    have hbounds : 0 < n ∧ n ≤ 0x8000000000000000 := by simpa [Number.isExact] using hn
    have htext : (Lexeme.number (.negative n)).text = '-' :: Nat.toDigits 10 n := by
      have hrepr : n.repr.toList = Nat.toDigits 10 n := Nat.toList_repr
      simp [Lexeme.text, Number.write, hrepr]
    refine ⟨'-', Nat.toDigits 10 n, (Nat.toDigits 10 n).length + 1, htext, rfl, ?_⟩
    rw [takeToken_digit (.inl rfl)]
    refine takeNumber_eq ?_ (value_negative hbounds.1 hbounds.2)
    rw [takeNumeral, takeUnsigned_digits size (start + 1) n true hrest]
    rfl

/-- **A lexeme is cut off the front of a text**, unless it would go on with what follows. -/
theorem takeToken_lexeme {l : Lexeme} (hl : l.isExact = true) {rest : List Char}
    (hrest : ∀ c ∈ rest.head?, l.absorbs c = false) (size start : Nat) :
    ∃ c cs width, l.text = c :: cs ∧ isBlank c = false ∧
      takeToken size start c (cs ++ rest) = ⟨l.token, width, rest⟩ := by
  cases l with
  | number n => exact takeToken_number hl hrest size start
  | string s =>
    have htext : (Lexeme.string s).text = '"' :: (s.toList.flatMap escapeChar ++ ['"']) := by
      simp [Lexeme.text, writeString]
    refine ⟨_, _, stringWidth (s.toList.map pieceOf), htext, rfl, ?_⟩
    rw [List.append_assoc, List.singleton_append, takeToken, takeString_escaped]
    simp [stringToken, Ending.fault?, decode_escaped, Lexeme.token, Except.map]
  | bool b => cases b <;> exact ⟨_, _, _, rfl, rfl, rfl⟩
  | _ => exact ⟨_, _, _, rfl, rfl, rfl⟩

/-- **A text that is written from lexemes is cut into their tokens.** -/
theorem tokensFrom_of_writes {ls : List Lexeme} {cs : List Char} (h : spelling.Writes ls cs)
    (hls : ∀ l ∈ ls, l.isExact = true) (size start : Nat) :
    (tokensFrom size start cs).map Placed.token = ls.map Lexeme.token := by
  induction h generalizing start with
  | nil => rw [tokensFrom]; rfl
  | blank hc _ ih =>
    have hc : isBlank _ = true := hc
    rw [tokensFrom, if_pos hc]
    exact ih hls _
  | @cons l ls rest hnext _ ih =>
    obtain ⟨hl, hls⟩ := List.forall_mem_cons.mp hls
    obtain ⟨c, cs, width, htext, hblank, htake⟩ := takeToken_lexeme hl hnext size start
    have htext : spelling.text l = c :: cs := htext
    rw [htext, List.cons_append, tokensFrom, hblank, if_neg Bool.false_ne_true, htake,
      List.map_cons, List.map_cons, ih hls]

end Concord.Json
