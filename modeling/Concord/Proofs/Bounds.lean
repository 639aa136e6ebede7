import Concord.Proofs.Query.Positions
import Concord.Proofs.Script.Indexing

/-!
# Nothing is out of bounds

What is said about a text is said with places in it, and a text is read by places and numbers.
`within_bounds` says, for query texts and for grammar scripts alike, that the places which are given
out are stretches of the text, and that the places and numbers by which it is read are in range.
-/

set_option autoImplicit false

namespace Concord

open Query (Document Clause)
open Query.Production (Inside)
open Script (Reader)

/-- The places of a text that is shorter than 4 GiB are numbers of 32 bits. -/
theorem Span.Sliceable.toNat_ofNat {s : Span} {source : String}
    (h : s.Sliceable source) (hsource : source.utf8ByteSize < 2 ^ 32) :
    (UInt32.ofNat s.start).toNat = s.start ∧ (UInt32.ofNat s.stop).toNat = s.stop := by
  have hstop := Nat.lt_of_le_of_lt h.stop_le hsource
  rw [UInt32.toNat_ofNat', UInt32.toNat_ofNat', Nat.mod_eq_of_lt hstop,
    Nat.mod_eq_of_lt (Nat.lt_of_le_of_lt h.start_le hstop)]
  exact ⟨rfl, rfl⟩

/-- **Everything stays within its bounds**, whatever the text is.  Read as a query text, the
stretches of its diagnostics and of their notes can be cut out of it; slicing gives the texts of its
tokens; where a pattern runs, the tokens go on; and where a clause has a subject, there are
arguments behind it.  Read as a grammar script, the stretches of the remarks, of their notes and of
the declared rules can be cut out of it; the rest can be cut off wherever the lexer stands, and a
regular expression literal behind its slash; and the scanner finds the same if each index, each
difference and each slice that it takes is checked.  And in a text that is shorter than 4 GiB, all
of these places are numbers of 32 bits. -/
theorem within_bounds (source : String) :
    ((∀ d ∈ (Document.parse source).diagnostics, d.Sliceable source) ∧
      (∀ t ∈ Query.tokenize source, slice? source.toList t.span = some t.text) ∧
      (∀ depth levels ms, Inside (Query.significant source) depth levels ms →
        ∃ number front back,
          splitAt? number (Document.significantTokens source) = some (front, back) ∧
            back.map Query.Token.toLexeme = ms) ∧
      ∀ (c : Clause) capture text, c.accepts? capture text = some (c.accepts capture text)) ∧
    ((∀ d ∈ (Script.scanScript source).2, d.Sliceable source) ∧
      (∀ r ∈ (Script.scanScript source).1.rules, ∀ span ∈ r.span, span.Sliceable source) ∧
      (∀ before after, Script.pieces none source.toList = before ++ after →
        cut? (utf8Length (before.flatMap Script.Lexeme.text)) source.toList =
          some (before.flatMap Script.Lexeme.text, after.flatMap Script.Lexeme.text)) ∧
      (∀ previous cs, Script.takeSlash? previous cs = some (Script.takeSlash previous cs)) ∧
      (∀ t ∈ Script.tokenize source, slice? source.toList t.span = some t.text) ∧
      (Reader.ofSource source).scan? = some (Script.scanTokens (Script.tokenize source))) ∧
    ∀ s : Span, s.Sliceable source → source.utf8ByteSize < 2 ^ 32 →
      (UInt32.ofNat s.start).toNat = s.start ∧ (UInt32.ofNat s.stop).toNat = s.stop :=
  have hscript := Script.placed_scanScript source
  ⟨⟨fun _ ↦ Document.sliceable_of_mem_diagnostics, fun _ ↦ Query.slice?_of_mem_tokenize,
      fun _ _ _ ↦ Document.exists_position, Clause.accepts?_eq⟩,
    ⟨hscript.1, hscript.2, fun _ _ ↦ Script.cut?_pieces, Script.takeSlash?_eq,
      fun _ ↦ Script.slice?_of_mem_tokenize, Reader.scan?_eq (Reader.faithful_ofSource source)⟩,
    fun _ ↦ Span.Sliceable.toNat_ofNat⟩

end Concord
