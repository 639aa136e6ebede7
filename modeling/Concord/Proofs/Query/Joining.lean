import Concord.Proofs.Query.Cutting
import Concord.Proofs.Query.Lossless
import Concord.Proofs.Query.Moving
import Concord.Proofs.Query.Recognition

/-!
# Queries one behind the other

A query file is often put together from several, and a broken one must not spoil what stands in
front of it.  Let `a` be a text without errors, and `b` any text that does not go on with the last
pattern of `a`.  Then the text of `a`, a line break and the text of `b` has the patterns of both.

The argument follows the text through all stages.

* `tokenize_join` — no token of `a` goes on over the line break, since `a` has no unclosed string.
* `Production.trees_root_append` — the last pattern of `a` is complete, and the productions start
  afresh in `b`.
* `exprs_join` — the trees of `b` are laid over tokens that stand further on.
-/

set_option autoImplicit false

open Computability

namespace Concord.Query

/-! ## Texts without errors have no garbage -/

namespace Phrase

/-- No word of the language has a lexeme that is garbage. -/
def FreeOfGarbage : Language Lexeme → Prop := EachLetter fun l ↦ l.kind ≠ .garbage

theorem freeOfGarbage_one {k : TokenKind} (hk : k ≠ .garbage) : FreeOfGarbage (one k) := by
  rintro w ⟨m, hm, rfl⟩ l hl
  rw [List.mem_singleton.mp hl, hm]
  exact hk

theorem freeOfGarbage_atom {L : Language Lexeme} (hL : FreeOfGarbage L) :
    FreeOfGarbage (atom L) := by
  have hone : ∀ k : TokenKind, k ≠ .garbage → FreeOfGarbage (one k) :=
    fun _ ↦ freeOfGarbage_one
  have hident := hone .ident (by decide)
  have hopen := hone .parenOpen (by decide)
  have hclose := hone .parenClose (by decide)
  have hunderscore := hone .underscore (by decide)
  have hquote := hone .quote (by decide)
  have hstr : FreeOfGarbage str :=
    (hquote.mul (eachLetter_one.add (hone .strVal (by decide)))).mul hquote
  have htree : FreeOfGarbage (tree L) :=
    (((hopen.mul (hident.add hunderscore)).mul
      (eachLetter_one.add ((hone .slash (by decide)).mul hident))).mul hL.kstar).mul hclose
  have hmembers : FreeOfGarbage (members L) := fun w hw ↦ hL.mul hL.kstar w hw.1
  have hpredicate : FreeOfGarbage predicate :=
    ((hopen.mul (hone .predicateName (by decide))).mul
      ((((hone .captureName (by decide)).add hident).add hunderscore).add hstr).kstar).mul hclose
  have halternation : FreeOfGarbage (alternation L) :=
    ((hone .bracketOpen (by decide)).mul hL.kstar).mul (hone .bracketClose (by decide))
  have hfield : FreeOfGarbage (field L) := (hident.mul (hone .colon (by decide))).mul hL
  exact (((((((htree.add ((hopen.mul hmembers).mul hclose)).add hpredicate).add
    halternation).add hstr).add hunderscore).add (hone .dot (by decide))).add hfield).add
    ((hone .bang (by decide)).mul hident)

theorem freeOfGarbage_pattern (levels : Nat) : FreeOfGarbage (pattern levels) := by
  induction levels with
  | zero => exact fun w hw ↦ absurd hw (Language.notMem_zero w)
  | succ levels ih =>
    have hquantifier : FreeOfGarbage quantifier :=
      ((freeOfGarbage_one (by decide)).add (freeOfGarbage_one (by decide))).add
        (freeOfGarbage_one (by decide))
    exact ((freeOfGarbage_atom ih).mul (eachLetter_one.add hquantifier)).mul
      (freeOfGarbage_one (by decide)).kstar

/-- A query of the language has no garbage. -/
theorem freeOfGarbage_root : FreeOfGarbage root := (freeOfGarbage_pattern 256).kstar

end Phrase

/-- All that a text without errors consists of is matched by some token. -/
theorem isMatched_of_mem_root {a : String} (ha : significant a ∈ Phrase.root) :
    ∀ p ∈ pieces a.toList, p.isMatched = true := by
  refine isMatched_of_mem_pieces fun l hl hgarbage ↦ ?_
  refine Phrase.freeOfGarbage_root _ ha l ?_ hgarbage
  rw [significant_eq_filter, List.mem_filter]
  exact ⟨hl, by rw [hgarbage]; rfl⟩

/-! ## Tokens -/

/-- The lexeme of a line break. -/
def lineBreak : Lexeme := ⟨.newline, ['\n']⟩

theorem scan_join {as : List Char} (h : ∀ p ∈ pieces as, p.isMatched = true) (bs : List Char) :
    scan (as ++ '\n' :: bs) = scan as ++ lineBreak :: scan bs := by
  have hpieces : pieces ['\n'] = [.lexeme .newline ['\n']] := by
    have hstep : step '\n' [] = (.lexeme .newline ['\n'], []) := rfl
    rw [pieces_cons, hstep, pieces_nil]
  have hbreak : scan (['\n'] ++ bs) = scan ['\n'] ++ scan bs := by
    refine scan_append ?_ ?_
    · simp [hpieces, Piece.isMatched]
    · simp [hpieces, Piece.absorbs]
  have hscan : scan ['\n'] = [lineBreak] := by
    rw [scan, hpieces]
    rfl
  rw [scan_append h, ← List.singleton_append, hbreak, hscan, List.singleton_append]
  intro p hp d hd
  rw [← Option.some_inj.mp hd]
  exact absorbs_newline (h p (List.mem_of_getLast? hp))

/-- **No token goes on over the line break**, and the tokens behind it are shifted. -/
theorem tokenize_join {a : String} (ha : significant a ∈ Phrase.root) (b : String) :
    tokenize (a ++ "\n" ++ b) =
      tokenize a ++ ([⟨lineBreak, a.utf8ByteSize⟩] ++
        (tokenize b).map (Token.shift (a.utf8ByteSize + 1))) := by
  have htext : (a ++ "\n" ++ b).toList = a.toList ++ '\n' :: b.toList := by simp
  have hbreak : utf8Length lineBreak.text = 1 := by decide
  have hshift := Token.placeAll_add (a.utf8ByteSize + 1) 0 (scan b.toList)
  rw [Nat.zero_add] at hshift
  rw [tokenize, htext, scan_join (isMatched_of_mem_root ha), Token.placeAll_append,
    flatMap_text_scan, utf8Length_toList, Nat.zero_add, Token.placeAll, hbreak, hshift]
  rfl

/-! ## Trees -/

namespace Production

theorem trees_root_append {w ls : List Lexeme} (hw : w ∈ Phrase.root) (hls : NoSuffix ls) :
    (root (w ++ ls)).trees = (root w).trees ++ (root ls).trees := by
  obtain ⟨ts, hts⟩ := root_append hw
  have hw' := hts [] noSuffix_nil
  rw [List.append_nil] at hw'
  rw [hts ls hls, hw', Parsed.andThen, Parsed.andThen]
  rw [root_nil, List.append_nil]

end Production

/-! ## Expressions -/

theorem Expr.ofTrees_append (ts us : List (Tree Token)) :
    Expr.ofTrees (ts ++ us) = Expr.ofTrees ts ++ Expr.ofTrees us := by
  simp only [Expr.ofTrees_eq_filterMap, List.filterMap_append]

/-- The expressions of a text without errors are followed by those of the text behind it. -/
theorem exprs_join {a b : String} (ha : significant a ∈ Phrase.root)
    (hb : Production.NoSuffix (significant b)) :
    (Document.parse (a ++ "\n" ++ b)).exprs =
      (Document.parse a).exprs ++
        (Document.parse b).exprs.map (Expr.shift (a.utf8ByteSize + 1)) := by
  have htokens := tokenize_join ha b
  have hsig : significant (a ++ "\n" ++ b) = significant a ++ significant b := by
    rw [significant, htokens, significantOf_append, significantOf_append, significantOf_map_shift]
    rfl
  have hleaves : ∀ source, significantOf (tokenize source) =
      Tree.leavesAll (Production.root (significant source)).trees :=
    fun source ↦ (Production.leavesAll_trees_root _).symm
  have hsolid : Tree.SolidAll
      (Tree.woven (Production.root (significant b)).trees (tokenize b)) := by
    refine Tree.solidAll_of_bareAll _ ?_
    rw [Tree.bareAll_woven (hleaves b)]
    exact Production.solidAll_trees_root _
  rw [exprs_parse, exprs_parse, exprs_parse, hsig, htokens, Production.trees_root_append ha hb,
    Tree.woven_append (Production.solidAll_trees_root _) (hleaves a),
    Tree.woven_trivia_append _ rfl, Expr.ofTrees_append, Expr.ofTrees_append,
    Tree.woven_map (f := Token.shift _) (fun _ ↦ rfl), Expr.ofTrees_mapAll_shift _ _ hsolid]
  rfl

/-! ## Patterns and questions -/

namespace Document

variable {d a b : Document} {n : Nat}

/-- What is asked of any pattern of both documents is asked of each of them. -/
theorem any_patterns (h : d.patterns = a.patterns ++ b.patterns.map (Pattern.shift n))
    {p : Pattern → Bool} (hp : ∀ q, p (q.shift n) = p q) :
    d.patterns.any p = (a.patterns.any p || b.patterns.any p) := by
  rw [h, List.any_append, List.any_map]
  congr 2
  exact funext hp

theorem presentsCapture_eq_any (d : Document) (nodeType capture : String) :
    d.presentsCapture nodeType capture = d.patterns.any fun p ↦
      p.captures.any fun c ↦
        c.nodeType == nodeType && c.capture == withoutMarker '@' capture := by
  rw [presentsCapture, hasCapture, capturesOf, captures, List.any_filter, List.any_flatMap]

theorem presentsPredicate_eq_any (d : Document) (capture predicate argument : String) :
    d.presentsPredicate capture predicate argument = d.patterns.any fun p ↦
      p.clauses.any fun c ↦
        c.name == withoutMarker '#' predicate &&
          c.subject? == some (withoutMarker '@' capture) &&
          c.args.tail.any fun a ↦ a.asText? == some argument := by
  rw [presentsPredicate, List.any_flatMap]

/-- **A text without errors and any text behind it are read apart**, unless the text behind goes
on with the last pattern: the patterns of the second follow those of the first, shifted, and each
question is answered with yes if one of the texts says so. -/
theorem parse_join (a b : String)
    (ha : Diagnostic.anyError (Document.parse a).diagnostics = false)
    (hb : ∀ l ∈ (significant b).head?, l.kind.isQuantifier = false ∧ l.kind ≠ .captureName) :
    (Document.parse (a ++ "\n" ++ b)).patterns =
        (Document.parse a).patterns ++
          (Document.parse b).patterns.map (Pattern.shift (a.utf8ByteSize + 1)) ∧
      (∀ nodeType capture, (Document.parse (a ++ "\n" ++ b)).presentsCapture nodeType capture =
        ((Document.parse a).presentsCapture nodeType capture ||
          (Document.parse b).presentsCapture nodeType capture)) ∧
      (∀ capture predicate argument,
        (Document.parse (a ++ "\n" ++ b)).presentsPredicate capture predicate argument =
          ((Document.parse a).presentsPredicate capture predicate argument ||
            (Document.parse b).presentsPredicate capture predicate argument)) ∧
      (∀ capture text, (Document.parse (a ++ "\n" ++ b)).captureAccepts capture text =
        ((Document.parse a).captureAccepts capture text ||
          (Document.parse b).captureAccepts capture text)) := by
  have hroot : significant a ∈ Phrase.root :=
    (Production.reports_root_eq_nil_iff _).mp ((anyError_parse_iff a).mp ha)
  have hnosuffix : Production.NoSuffix (significant b) := by
    intro l hl
    obtain ⟨hquantifier, hcapture⟩ := hb l hl
    rw [TokenKind.isSuffix, hquantifier, Bool.false_or]
    exact decide_eq_false hcapture
  have hpatterns : (Document.parse (a ++ "\n" ++ b)).patterns =
      (Document.parse a).patterns ++
        (Document.parse b).patterns.map (Pattern.shift (a.utf8ByteSize + 1)) := by
    have hexprs : ∀ source, (Document.parse source).patterns =
        (Document.parse source).exprs.map Pattern.ofExpr := fun _ ↦ rfl
    rw [hexprs, exprs_join hroot hnosuffix, List.map_append, hexprs, hexprs, List.map_map,
      List.map_map]
    refine congrArg _ (List.map_congr_left fun e _ ↦ ?_)
    exact Pattern.ofExpr_shift _ e
  refine ⟨hpatterns, fun nodeType capture ↦ ?_, fun capture predicate argument ↦ ?_,
    fun capture text ↦ ?_⟩
  · rw [presentsCapture_eq_any, presentsCapture_eq_any, presentsCapture_eq_any]
    refine any_patterns hpatterns fun q ↦ ?_
    rw [Pattern.shift, List.any_map]
    rfl
  · rw [presentsPredicate_eq_any, presentsPredicate_eq_any, presentsPredicate_eq_any]
    refine any_patterns hpatterns fun q ↦ ?_
    rw [Pattern.shift, List.any_map]
    rfl
  · refine any_patterns hpatterns fun q ↦ ?_
    rw [Pattern.accepts_shift]

/-- An alternation that is not closed does not spoil the tree in front of it. -/
theorem parse_join_unclosed :
    Diagnostic.anyError (Document.parse "(a) @x").diagnostics = false ∧
      Diagnostic.anyError (Document.parse "[(b) @y").diagnostics = true ∧
      (Document.parse ("(a) @x" ++ "\n" ++ "[(b) @y")).patterns =
        (Document.parse "(a) @x").patterns ++
          (Document.parse "[(b) @y").patterns.map (Pattern.shift ("(a) @x".utf8ByteSize + 1)) := by
  have ha : Diagnostic.anyError (Document.parse "(a) @x").diagnostics = false := by decide +kernel
  have hb : ∀ l ∈ (significant "[(b) @y").head?,
      l.kind.isQuantifier = false ∧ l.kind ≠ .captureName := by decide +kernel
  exact ⟨ha, by decide +kernel, (parse_join _ _ ha hb).1⟩

end Document

end Concord.Query
