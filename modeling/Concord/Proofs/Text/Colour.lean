import Mathlib.Tactic.SplitIfs
import Concord.Check.Report
import Concord.Listing.Captures
import Concord.Listing.Rules
import Concord.Listing.Scopes

/-!
# Colour is only decoration

A text with colours is read from left to right: where a code of the palette stands, the code is
one piece, and every other character is a piece by itself.  So codes can be told from the text
around them as long as no string has the escape character in it, with which every code begins.

* `readColours` cuts a text like this; `withoutCodes` and `codes` are the two halves of what comes
  out.
* `Decorated fs` says that the codes of coloured fragments can be taken out again, and that each
  colour is reset before anything else is done.
* `decorated_of_noEscape` says it of all fragments without the escape character.
* `decorated_texts` says it of reports and of the three listings.
-/

set_option autoImplicit false

namespace Concord

/-! ## Codes in a text -/

/-- A code of the palette. -/
inductive ColourCode where
  | opens (c : Colour)
  | resets
deriving DecidableEq, Repr

theorem append_of_stripFront? {α : Type} [BEq α] [LawfulBEq α] {front cs rest : List α}
    (h : stripFront? front cs = some rest) : front ++ rest = cs := by
  fun_induction stripFront? front cs with
  | case1 cs => rw [Option.some_inj.mp h, List.nil_append]
  | case2 a as b bs heq ih => rw [List.cons_append, ih h, beq_iff_eq.mp heq]
  | case3 => contradiction
  | case4 => contradiction

namespace ColourCode

/-- The characters of the code. -/
def text : ColourCode → List Char
  | opens c => c.code.toList
  | resets => resetCode.toList

/-- All codes. -/
def palette : List ColourCode := [opens .blue, opens .green, opens .red, opens .dim, resets]

/-- The code that a text begins with, if it begins with one, and what stands behind it. -/
def take? (cs : List Char) : Option (ColourCode × List Char) :=
  palette.findSome? fun k ↦ (stripFront? k.text cs).map (k, ·)

/-- Every code begins with the escape character. -/
theorem exists_text_eq_cons (k : ColourCode) : ∃ cs, k.text = '\x1b' :: cs := by
  cases k with
  | opens c => cases c <;> exact ⟨_, rfl⟩
  | resets => exact ⟨_, rfl⟩

theorem take?_text_append (k : ColourCode) (cs : List Char) :
    take? (k.text ++ cs) = some (k, cs) := by
  cases k with
  | opens c => cases c <;> rfl
  | resets => rfl

theorem take?_cons {c : Char} (hc : c ≠ '\x1b') (cs : List Char) : take? (c :: cs) = none := by
  have hstrip (k : ColourCode) : stripFront? k.text (c :: cs) = none := by
    obtain ⟨ds, hk⟩ := k.exists_text_eq_cons
    rw [hk, stripFront?, if_neg (by simpa using hc.symm)]
  simp [take?, hstrip]

theorem append_of_take? {cs rest : List Char} {k : ColourCode} (h : take? cs = some (k, rest)) :
    k.text ++ rest = cs := by
  obtain ⟨k', -, hk⟩ := List.exists_of_findSome?_eq_some h
  obtain ⟨_, hstrip, heq⟩ := Option.map_eq_some_iff.mp hk
  obtain ⟨rfl, rfl⟩ := Prod.mk.inj heq
  exact append_of_stripFront? hstrip

end ColourCode

/-- A text cut into codes and other characters. -/
def readColours : List Char → List (ColourCode ⊕ Char)
  | [] => []
  | c :: cs =>
    match _h : ColourCode.take? (c :: cs) with
    | some (k, rest) => .inl k :: readColours rest
    | none => .inr c :: readColours cs
termination_by cs => cs.length
decreasing_by
  · have hlength := congrArg List.length (ColourCode.append_of_take? _h)
    obtain ⟨ds, hk⟩ := k.exists_text_eq_cons
    rw [hk, List.length_append, List.length_cons] at hlength
    omega
  · exact Nat.lt_succ_self _

/-- The text without its codes. -/
def withoutCodes (s : String) : String :=
  String.ofList ((readColours s.toList).filterMap Sum.getRight?)

/-- The codes in the text, in order. -/
def codes (s : String) : List ColourCode := (readColours s.toList).filterMap Sum.getLeft?

theorem readColours_text_append (k : ColourCode) (cs : List Char) :
    readColours (k.text ++ cs) = .inl k :: readColours cs := by
  obtain ⟨ds, hk⟩ := k.exists_text_eq_cons
  have htake := k.take?_text_append cs
  rw [hk, List.cons_append] at htake ⊢
  rw [readColours]
  split
  · rename_i k' rest h
    rw [htake, Option.some_inj, Prod.mk.injEq] at h
    rw [h.1, h.2]
  · rename_i h
    rw [htake] at h
    contradiction

theorem readColours_append {cs : List Char} (hcs : '\x1b' ∉ cs) (ds : List Char) :
    readColours (cs ++ ds) = cs.map .inr ++ readColours ds := by
  induction cs with
  | nil => rfl
  | cons c cs ih =>
    rw [List.mem_cons, not_or] at hcs
    have htake := ColourCode.take?_cons (Ne.symm hcs.1) (cs ++ ds)
    rw [List.cons_append, readColours]
    split
    · rename_i h
      rw [htake] at h
      contradiction
    · rw [ih hcs.2]
      rfl

/-! ## Coloured fragments -/

namespace Fragment

/-- The text of a fragment, whatever its colour is. -/
def text : Fragment → String
  | plain text => text
  | painted _ text => text

/-- The codes around a fragment. -/
def codes : Fragment → List ColourCode
  | plain _ => []
  | painted c _ => [.opens c, .resets]

/-- What a coloured fragment is cut into. -/
def pieces : Fragment → List (ColourCode ⊕ Char)
  | plain text => text.toList.map .inr
  | painted c text => .inl (.opens c) :: (text.toList.map .inr ++ [.inl .resets])

end Fragment

/-- The text has no escape character. -/
def NoEscape (s : String) : Prop := '\x1b' ∉ s.toList

instance (s : String) : Decidable (NoEscape s) := inferInstanceAs (Decidable ('\x1b' ∉ s.toList))

section Fragments

variable {f : Fragment} {fs : List Fragment}

theorem readColours_write (hf : NoEscape f.text) (cs : List Char) :
    readColours ((f.write true).toList ++ cs) = f.pieces ++ readColours cs := by
  cases f with
  | plain text => exact readColours_append hf cs
  | painted c text =>
    have htext : '\x1b' ∉ text.toList := hf
    calc readColours (((Fragment.painted c text).write true).toList ++ cs)
        = readColours ((ColourCode.opens c).text ++
            (text.toList ++ (ColourCode.resets.text ++ cs))) := by
          simp [Fragment.write, ColourCode.text]
      _ = .inl (.opens c) :: (text.toList.map .inr ++ .inl .resets :: readColours cs) := by
          rw [readColours_text_append, readColours_append htext, readColours_text_append]
      _ = (Fragment.painted c text).pieces ++ readColours cs := by simp [Fragment.pieces]

theorem readColours_writeAll (hfs : ∀ f ∈ fs, NoEscape f.text) :
    readColours (Fragment.writeAll true fs).toList = fs.flatMap Fragment.pieces := by
  rw [Fragment.writeAll, String.toList_join, List.flatMap_map]
  induction fs with
  | nil => rw [List.flatMap_nil, List.flatMap_nil, readColours]
  | cons f fs ih =>
    obtain ⟨hf, hfs⟩ := List.forall_mem_cons.mp hfs
    rw [List.flatMap_cons, readColours_write hf, ih hfs, List.flatMap_cons]

/-- Each colour is reset before anything else is done. -/
inductive EachReset : List ColourCode → Prop
  | nil : EachReset []
  | pair (c : Colour) {ks : List ColourCode} (h : EachReset ks) :
    EachReset (.opens c :: .resets :: ks)

/-- The colours of a text are only decoration. -/
structure Decorated (fs : List Fragment) : Prop where
  /-- Without the codes, the text is the one without colours. -/
  plain : withoutCodes (Fragment.writeAll true fs) = Fragment.writeAll false fs
  /-- Each colour is reset before the next one and before the end of the text. -/
  reset : EachReset (codes (Fragment.writeAll true fs))

theorem eachReset_flatMap_codes (fs : List Fragment) : EachReset (fs.flatMap Fragment.codes) := by
  induction fs with
  | nil => exact .nil
  | cons f fs ih =>
    cases f with
    | plain text => exact ih
    | painted c text => exact .pair c ih

/-- **Colours are only decoration**, where no text has the escape character in it. -/
theorem decorated_of_noEscape (hfs : ∀ f ∈ fs, NoEscape f.text) : Decorated fs where
  plain := by
    have hsome (cs : List Char) :
        (cs.map (Sum.inr (α := ColourCode))).filterMap Sum.getRight? = cs := by
      rw [List.filterMap_map]
      exact List.filterMap_some
    have hright (f : Fragment) : f.pieces.filterMap Sum.getRight? = (f.write false).toList := by
      cases f <;> simp [Fragment.pieces, Fragment.write, hsome, List.filterMap_cons]
    rw [withoutCodes, readColours_writeAll hfs, List.filterMap_flatMap]
    simp only [hright]
    rw [← List.flatMap_map, ← String.toList_join, String.ofList_toList, Fragment.writeAll]
  reset := by
    have hleft (f : Fragment) : f.pieces.filterMap Sum.getLeft? = f.codes := by
      cases f <;> simp [Fragment.pieces, Fragment.codes, List.filterMap_map]
    rw [codes, readColours_writeAll hfs, List.filterMap_flatMap]
    simp only [hleft]
    exact eachReset_flatMap_codes fs

end Fragments

/-! ## Texts without the escape character -/

section NoEscape

theorem noEscape_append {s t : String} : NoEscape (s ++ t) ↔ NoEscape s ∧ NoEscape t := by
  simp [NoEscape]

/-- No digit is the escape character. -/
theorem noEscape_toDigits {b : Nat} (hb : 1 < b) (hsmall : b ≤ 16) (n : Nat) :
    '\x1b' ∉ Nat.toDigits b n := by
  have hdigit : ∀ k < 16, '\x1b' ≠ Nat.digitChar k := by decide
  induction n using Nat.strongRecOn with
  | ind n ih =>
    rcases Nat.lt_or_ge n b with hlt | hge
    · rw [Nat.toDigits_of_lt_base hlt, List.mem_singleton]
      exact hdigit n (by omega)
    · have hmod := Nat.mod_lt n (Nat.lt_of_succ_lt hb)
      rw [Nat.toDigits_of_base_le hb hge, List.mem_append, List.mem_singleton, not_or]
      exact ⟨ih (n / b) (Nat.div_lt_self (by omega) hb), hdigit (n % b) (by omega)⟩

theorem noEscape_toString (n : Nat) : NoEscape (toString n) := by
  have hdigits := noEscape_toDigits (b := 10) (by decide) (by decide) n
  rwa [NoEscape, Nat.toString_eq_repr, Nat.toList_repr]

theorem noEscape_quoteChar {c : Char} (hc : c ≠ '\x1b') : NoEscape (quoteChar c) := by
  have hself : NoEscape c.toString := by simpa [NoEscape] using hc.symm
  have hhex : NoEscape (hexDigits c.toNat) := by
    rw [NoEscape, hexDigits, String.toList_ofList]
    exact noEscape_toDigits (by decide) (by decide) _
  have hcode : NoEscape ("\\u\x7b" ++ hexDigits c.toNat ++ "\x7d") :=
    noEscape_append.mpr ⟨noEscape_append.mpr ⟨by decide, hhex⟩, by decide⟩
  rw [quoteChar]
  split_ifs
  all_goals first
    | decide
    | exact hself
    | exact hcode

theorem noEscape_quoted {s : String} (hs : NoEscape s) : NoEscape (quoted s) := by
  have hbody : NoEscape (String.join (s.toList.map quoteChar)) := by
    rw [NoEscape, String.toList_join, List.flatMap_map, List.mem_flatMap]
    rintro ⟨c, hc, hmem⟩
    exact noEscape_quoteChar (fun heq ↦ hs (heq ▸ hc)) hmem
  exact noEscape_append.mpr ⟨noEscape_append.mpr ⟨by decide, hbody⟩, by decide⟩

theorem noEscape_withoutMarker {s : String} (hs : NoEscape s) (marker : Char) :
    NoEscape (Query.withoutMarker marker s) := by
  rw [NoEscape, Query.withoutMarker, String.toList_ofList]
  exact fun h ↦ hs ((List.dropWhile_sublist _).subset h)

theorem noEscape_describe {c : Check} (h : ∀ s ∈ c.values, NoEscape s) : NoEscape c.describe := by
  have hquestion : ∀ k : CheckKind, NoEscape k.question := by
    intro k
    cases k <;> decide
  refine noEscape_append.mpr ⟨noEscape_append.mpr ⟨hquestion _, by decide⟩, ?_⟩
  cases c with
  | scope s | rule s => exact noEscape_quoted (h s (by simp [Check.values]))
  | capture n c =>
    have hn := h n (by simp [Check.values])
    have hc := noEscape_withoutMarker (h c (by simp [Check.values])) '@'
    simp only [noEscape_append]
    exact ⟨⟨⟨by decide, hn⟩, by decide⟩, hc⟩
  | predicate c p a =>
    have hc := noEscape_withoutMarker (h c (by simp [Check.values])) '@'
    have hp := noEscape_withoutMarker (h p (by simp [Check.values])) '#'
    have ha := noEscape_quoted (h a (by simp [Check.values]))
    simp only [noEscape_append]
    exact ⟨⟨⟨⟨⟨⟨by decide, hp⟩, by decide⟩, hc⟩, by decide⟩, ha⟩, by decide⟩
  | accepts c t =>
    have hc := noEscape_withoutMarker (h c (by simp [Check.values])) '@'
    have ht := noEscape_quoted (h t (by simp [Check.values]))
    simp only [noEscape_append]
    exact ⟨⟨⟨by decide, hc⟩, by decide⟩, ht⟩
  | contains a t =>
    have ha := h a.key (by simp [Check.values])
    have ht := noEscape_quoted (h t (by simp [Check.values]))
    simp only [noEscape_append]
    exact ⟨⟨ha, by decide⟩, ht⟩

end NoEscape

/-! ## The texts for a reader -/

/-- The strings of an outcome. -/
def Outcome.strings (o : Outcome) : List String := o.category :: (o.check.values ++ o.hint.toList)

/-- The strings of a report. -/
def Report.strings (r : Report) : List String := r.outcomes.flatMap Outcome.strings

/-- The strings of a listing of rules. -/
def RulesListing.strings (l : RulesListing) : List String :=
  l.name.toList ++ l.rules ++ l.undeclared

/-- The strings of a declaration. -/
def ScopeDecl.strings (d : ScopeDecl) : List String := [d.value, d.path]

/-- The strings of a row. -/
def CaptureRow.strings (r : CaptureRow) : List String := [r.node, r.capture]

namespace Report

theorem noEscape_outcomeText {o : Outcome} (h : ∀ s ∈ o.strings, NoEscape s) :
    ∀ f ∈ outcomeText o, NoEscape f.text := by
  have hvalues : ∀ s ∈ o.check.values, NoEscape s := fun s hs ↦ h s (by simp [Outcome.strings, hs])
  have hcheck := noEscape_describe hvalues
  have hline : NoEscape ("  " ++ o.check.describe ++ "\n") := by
    simp only [noEscape_append]
    exact ⟨⟨by decide, hcheck⟩, by decide⟩
  have hmark : NoEscape (if o.passed then Fragment.painted .green "pass"
      else .painted .red "FAIL").text := by
    split <;> decide
  refine List.forall_mem_append.mpr ⟨?_, ?_⟩
  · simp only [List.forall_mem_cons]
    exact ⟨by decide, hmark, hline, List.forall_mem_nil _⟩
  · cases hhint : o.hint with
    | none => exact List.forall_mem_nil _
    | some hint =>
      have hhint := h hint (by simp [Outcome.strings, hhint])
      simp only [List.forall_mem_cons]
      exact ⟨by decide, noEscape_append.mpr ⟨by decide, hhint⟩, by decide, List.forall_mem_nil _⟩

theorem noEscape_outcomesText {os : List Outcome} (h : ∀ o ∈ os, ∀ s ∈ o.strings, NoEscape s)
    (current : Option String) : ∀ f ∈ outcomesText current os, NoEscape f.text := by
  induction os generalizing current with
  | nil => exact List.forall_mem_nil _
  | cons o os ih =>
    obtain ⟨ho, hos⟩ := List.forall_mem_cons.mp h
    refine List.forall_mem_append.mpr
      ⟨List.forall_mem_append.mpr ⟨?_, noEscape_outcomeText ho⟩, ih hos _⟩
    split
    · exact List.forall_mem_nil _
    · simp only [List.forall_mem_cons]
      exact ⟨ho _ List.mem_cons_self, by decide, List.forall_mem_nil _⟩

theorem decorated_text {r : Report} (h : ∀ s ∈ r.strings, NoEscape s) : Decorated r.text := by
  have houtcomes : ∀ o ∈ r.outcomes, ∀ s ∈ o.strings, NoEscape s :=
    fun o ho s hs ↦ h s (List.mem_flatMap.mpr ⟨o, ho, hs⟩)
  refine decorated_of_noEscape (List.forall_mem_append.mpr
    ⟨noEscape_outcomesText houtcomes none, List.forall_mem_singleton.mpr ?_⟩)
  simp only [Fragment.text, noEscape_append]
  exact ⟨⟨⟨noEscape_toString _, by decide⟩, noEscape_toString _⟩, by decide⟩

end Report

namespace RulesListing

theorem noEscape_nameLines {names : List String} (h : ∀ n ∈ names, NoEscape n) :
    ∀ f ∈ nameLines names, NoEscape f.text := by
  refine List.forall_mem_map.mpr fun n hn ↦ ?_
  simp only [Fragment.text, noEscape_append]
  exact ⟨⟨by decide, h n hn⟩, by decide⟩

theorem decorated_text {l : RulesListing} (h : ∀ s ∈ l.strings, NoEscape s) :
    Decorated l.text := by
  have hrules : ∀ n ∈ l.rules, NoEscape n := fun n hn ↦ h n (by simp [strings, hn])
  have hundeclared : ∀ n ∈ l.undeclared, NoEscape n := fun n hn ↦ h n (by simp [strings, hn])
  have hname : NoEscape (l.name.getD "grammar") := by
    cases hl : l.name with
    | none => decide
    | some name => exact h name (by simp [strings, hl])
  refine decorated_of_noEscape (List.forall_mem_append.mpr
    ⟨List.forall_mem_append.mpr ⟨?_, noEscape_nameLines hrules⟩, ?_⟩)
  · have hcount : NoEscape (": " ++ toString l.rules.length ++ " rules\n") := by
      simp only [noEscape_append]
      exact ⟨⟨by decide, noEscape_toString _⟩, by decide⟩
    simp only [List.forall_mem_cons]
    exact ⟨hname, hcount, List.forall_mem_nil _⟩
  · split
    · exact List.forall_mem_nil _
    · refine List.forall_mem_append.mpr ⟨?_, noEscape_nameLines hundeclared⟩
      simp only [List.forall_mem_cons]
      exact ⟨by decide, by decide, List.forall_mem_nil _⟩

end RulesListing

/-- Blanks have no escape character among them. -/
theorem noEscape_blanks (n : Nat) : NoEscape (String.ofList (List.replicate n ' ')) := by
  simp [NoEscape]

theorem ScopeListing.decorated_text {ds : List ScopeDecl}
    (h : ∀ d ∈ ds, ∀ s ∈ d.strings, NoEscape s) : Decorated (text ds) := by
  refine decorated_of_noEscape (List.forall_mem_flatMap.mpr fun d hd ↦ ?_)
  have hvalue : NoEscape (padRight (width ds) d.value ++ "  ") := by
    simp only [padRight, noEscape_append]
    exact ⟨⟨h d hd _ (by simp [ScopeDecl.strings]), noEscape_blanks _⟩, by decide⟩
  have hpath : NoEscape d.path := h d hd _ (by simp [ScopeDecl.strings])
  simp only [List.forall_mem_cons]
  exact ⟨hvalue, hpath, by decide, List.forall_mem_nil _⟩

theorem CaptureRow.decorated_text {rows : List CaptureRow}
    (h : ∀ r ∈ rows, ∀ s ∈ r.strings, NoEscape s) : Decorated (text rows) := by
  refine decorated_of_noEscape (List.forall_mem_flatMap.mpr fun r hr ↦ ?_)
  have hline : NoEscape (padLeft 4 (toString r.line)) :=
    noEscape_append.mpr ⟨noEscape_blanks _, noEscape_toString _⟩
  have hnode : NoEscape r.nodeText := by
    have hname : NoEscape r.node := h r hr _ (by simp [strings])
    rw [nodeText]
    split
    · simp only [noEscape_append]
      exact ⟨⟨by decide, hname⟩, by decide⟩
    · exact noEscape_quoted hname
  have hcapture : NoEscape r.capture := h r hr _ (by simp [strings])
  simp only [List.forall_mem_cons]
  refine ⟨hline, ?_, noEscape_append.mpr ⟨by decide, hcapture⟩, by decide, List.forall_mem_nil _⟩
  simp only [Fragment.text, noEscape_append]
  exact ⟨⟨by decide, hnode⟩, by decide⟩

/-- **Colour is only decoration.**  Where no string has the escape character in it, the coloured
text of a report or of a listing is the plain one once its codes are taken out, and each of its
colours is reset before the next one is opened and before the end. -/
theorem decorated_texts :
    (∀ r : Report, (∀ s ∈ r.strings, NoEscape s) → Decorated r.text) ∧
    (∀ l : RulesListing, (∀ s ∈ l.strings, NoEscape s) → Decorated l.text) ∧
    (∀ ds : List ScopeDecl, (∀ d ∈ ds, ∀ s ∈ d.strings, NoEscape s) →
      Decorated (ScopeListing.text ds)) ∧
    ∀ rows : List CaptureRow, (∀ r ∈ rows, ∀ s ∈ r.strings, NoEscape s) →
      Decorated (CaptureRow.text rows) :=
  ⟨fun _ ↦ Report.decorated_text, fun _ ↦ RulesListing.decorated_text,
    fun _ ↦ ScopeListing.decorated_text, fun _ ↦ CaptureRow.decorated_text⟩

/-- A failed check with a hint, in a category whose name looks like the rest of a code, and a listing
of a grammar with such a name. -/
theorem decorated_texts_bracket :
    (∀ s ∈ (Report.mk [⟨"[34m", .scope "a\"b", false, some "did you mean `ab`?"⟩]).strings,
      NoEscape s) ∧
    Decorated (Report.mk [⟨"[34m", .scope "a\"b", false, some "did you mean `ab`?"⟩]).text ∧
    codes (Fragment.writeAll true
      (Report.mk [⟨"[34m", .scope "a\"b", false, some "did you mean `ab`?"⟩]).text) =
      [.opens .blue, .resets, .opens .red, .resets, .opens .dim, .resets, .opens .red,
        .resets] ∧
    (∀ s ∈ (RulesListing.mk (some "[0m") ["a"] ["b"]).strings, NoEscape s) ∧
    Decorated (RulesListing.mk (some "[0m") ["a"] ["b"]).text ∧
    codes (Fragment.writeAll true (RulesListing.mk (some "[0m") ["a"] ["b"]).text) =
      [.opens .blue, .resets, .opens .dim, .resets] := by
  have hreport : ∀ s ∈
      (Report.mk [⟨"[34m", .scope "a\"b", false, some "did you mean `ab`?"⟩]).strings,
      NoEscape s := by decide
  have hlisting : ∀ s ∈ (RulesListing.mk (some "[0m") ["a"] ["b"]).strings, NoEscape s := by
    decide
  exact ⟨hreport, decorated_texts.1 _ hreport, by decide +kernel, hlisting,
    decorated_texts.2.1 _ hlisting, by decide +kernel⟩

end Concord
