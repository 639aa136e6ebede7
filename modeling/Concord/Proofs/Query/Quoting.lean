import Concord.Proofs.Query.Joining
import Concord.Proofs.Query.RoundTrip
import Concord.Proofs.Query.Significance

/-!
# Restrictions on the text of a capture

The text of a captured node can be restricted to some values, or away from them:
`((n) @c (#any-of? @c "value" ...))`.  Whatever the values are, quotes, line breaks and comment
signs among them, the query asks for these and for nothing else.

* `WrittenFrom ps text` says that a text is written from some pieces; the lemmas on it put a piece
  or a blank in front.
* `Abstract.written_restriction` — with the values escaped, the text is a way to write what is
  meant, and so it is read as that (`Document.parse_restriction`).
* `Pattern.accepts_of_shape` — from what a pattern with one clause says, which texts it lets pass.
-/

set_option autoImplicit false

namespace Concord.Query

/-! ## Texts put together piece by piece -/

/-- The text is written from the pieces, and a gap may stand in front of them. -/
def WrittenFrom (ps : List Piece) (text : List Char) : Prop :=
  ∃ g rest, Gap g ∧ Rendering ps rest ∧ text = g ++ rest

theorem writtenFrom_nil : WrittenFrom [] [] := ⟨[], [], .nil, .nil, rfl⟩

theorem WrittenFrom.piece {ps : List Piece} {text : List Char} (h : WrittenFrom ps text) (p : Piece)
    (hp : ∀ c ∈ text.head?, p.absorbs c = false) : WrittenFrom (p :: ps) (p.text ++ text) := by
  obtain ⟨g, rest, hg, hrest, rfl⟩ := h
  refine ⟨[], _, .nil, .cons hg ?_ hrest, rfl⟩
  rintro rfl
  exact hp

theorem WrittenFrom.blank {ps : List Piece} {text : List Char} (h : WrittenFrom ps text) :
    WrittenFrom ps (' ' :: text) := by
  obtain ⟨g, rest, hg, hrest, rfl⟩ := h
  exact ⟨' ' :: g, rest, .blank rfl hg, hrest, rfl⟩

namespace Abstract

/-! ## Escaped values -/

/-- The characters of a value with a backslash before each backslash and each quote. -/
def escapeChars (value : List Char) : List Char :=
  value.flatMap fun c ↦ if c = '\\' ∨ c = '"' then ['\\', c] else [c]

/-- The value with a backslash before each backslash and each quote. -/
def escape (value : String) : String := String.ofList (escapeChars value.toList)

/-- An escaped value spells the value. -/
theorem spells_escapeChars (value : List Char) : Spells (escapeChars value) value := by
  induction value with
  | nil => exact .nil
  | cons c value ih =>
    rw [escapeChars, List.flatMap_cons]
    by_cases hc : c = '\\' ∨ c = '"'
    · rw [if_pos hc]
      rcases hc with rfl | rfl
      · exact .escaped (by decide) ih
      · exact .escaped (by decide) ih
    · rw [if_neg hc]
      rw [not_or] at hc
      exact .plain hc.2 hc.1 ih

/-! ## The query -/

/-- `((label) @capture (#predicate @capture "value" ...))`, with the values escaped. -/
def restriction (label : Label) (capture : CaptureName) (predicate : String)
    (values : List String) : String :=
  "((" ++ label.string ++ ") @" ++ capture.string ++ " (#" ++ predicate ++ " @" ++
    capture.string ++ String.join (values.map fun value ↦ " \"" ++ escape value ++ "\"") ++ "))"

variable (label : Label) (capture : CaptureName) (predicate : PredicateName) (values : List String)

/-- The arguments of the predicate: the capture and the values. -/
def restrictionArgs : List Arg := .capture capture :: values.map .str

/-- What the query is meant to say. -/
def restrictionItem : Item :=
  .plain (.group [.item (.plain (.tree label none []) none [capture]),
    .predicate predicate (restrictionArgs capture values)]) none []

/-- The literals of the values. -/
def valuePieces : List Piece := values.map fun value ↦ .literal (escapeChars value.toList)

/-- The pieces of the query. -/
def restrictionPieces : List Piece :=
  [openParen, openParen, label.piece, closeParen, capture.piece, openParen, predicate.piece,
    capture.piece] ++ valuePieces values ++ [closeParen, closeParen]

theorem valuePieces_mem : valuePieces values ∈ Arg.spellingsAll (values.map .str) := by
  induction values with
  | nil => rfl
  | cons value values ih =>
    rw [List.map_cons, Arg.spellingsAll]
    exact Language.mem_mul.mpr ⟨_, ⟨_, spells_escapeChars value.toList, rfl⟩, _, ih, rfl⟩

theorem restrictionPieces_mem : restrictionPieces label capture predicate values ∈
    Item.spellingsAll [restrictionItem label capture predicate values] := by
  have hargs : [capture.piece] ++ valuePieces values ∈
      Arg.spellingsAll (restrictionArgs capture values) :=
    Language.append_mem_mul rfl (valuePieces_mem values)
  have hmember : [openParen, predicate.piece] ++ ([capture.piece] ++ valuePieces values) ++
      [closeParen] ∈ (Member.predicate predicate (restrictionArgs capture values)).spellings := by
    rw [Member.spellings]
    exact Language.append_mem_mul (Language.append_mem_mul rfl hargs) rfl
  have htree : [openParen, label.piece, closeParen, capture.piece] ∈
      (Member.item (.plain (.tree label none []) none [capture])).spellings := by
    simp only [Member.spellings, Item.spellings, Atom.spellings, Member.spellingsAll, mul_one,
      Language.mem_mul]
    exact ⟨_, ⟨_, rfl, _, rfl, rfl⟩, _, rfl, rfl⟩
  simp only [restrictionItem, Item.spellingsAll, Item.spellings, Atom.spellings,
    Member.spellingsAll, mul_one, Language.mem_mul]
  refine ⟨_, ⟨_, ⟨_, rfl, _, ⟨_, htree, _, hmember, rfl⟩, rfl⟩, _, rfl, rfl⟩, _, rfl, ?_⟩
  simp [restrictionPieces, suffixPieces]

theorem writtenFrom_values {ps : List Piece} {text : List Char} (h : WrittenFrom ps text) :
    WrittenFrom (valuePieces values ++ ps)
      (values.flatMap (fun value ↦ ' ' :: (Piece.literal (escapeChars value.toList)).text) ++
        text) := by
  induction values with
  | nil => exact h
  | cons value values ih =>
    have hvalue := (ih.piece (.literal (escapeChars value.toList)) fun _ _ ↦ rfl).blank
    simpa [valuePieces] using hvalue

theorem absorbs_label {c : Char} (hc : isIdentPart c = false) : label.piece.absorbs c = false := by
  rw [Label.piece]
  split <;> exact hc

theorem absorbs_predicateName {c : Char} (hc : (isPredicatePart c || isMark c) = false) :
    predicate.piece.absorbs c = false := by
  rw [PredicateName.piece, Piece.absorbs, hc, Bool.and_false]

theorem toList_restriction :
    (restriction label capture predicate.string values).toList =
      openParen.text ++ (openParen.text ++ (label.piece.text ++ (closeParen.text ++ ' ' ::
        (capture.piece.text ++ ' ' :: (openParen.text ++ (predicate.piece.text ++ ' ' ::
          (capture.piece.text ++ (values.flatMap (fun value ↦
            ' ' :: (Piece.literal (escapeChars value.toList)).text) ++ "))".toList)))))))) := by
  have hvalues : (String.join (values.map fun value ↦ " \"" ++ escape value ++ "\"")).toList =
      values.flatMap fun value ↦ ' ' :: (Piece.literal (escapeChars value.toList)).text := by
    simp [escape, Piece.text, List.flatMap_map]
  have hlabel : label.piece.text = label.string.toList := String.toList_ofList.symm
  have hcapture : capture.piece.text = '@' :: capture.string.toList :=
    congrArg _ String.toList_ofList.symm
  have hpredicate : predicate.piece.text = '#' :: predicate.string.toList :=
    congrArg _ String.toList_ofList.symm
  have hopen : openParen.text = ['('] := rfl
  have hclose : closeParen.text = [')'] := rfl
  rw [hlabel, hcapture, hpredicate, hopen, hclose]
  simp [restriction, hvalues]

example : restriction ⟨'n', [], rfl, by simp⟩ ⟨'c', [], rfl, by simp⟩ "any-of?" ["\"", "a\\", ""] =
    "((n) @c (#any-of? @c \"\\\"\" \"a\\\\\" \"\"))" := by decide

/-- **The text is a way to write the query.** -/
theorem written_restriction :
    Written [restrictionItem label capture predicate values]
      (restriction label capture predicate.string values) := by
  refine ⟨_, restrictionPieces_mem label capture predicate values, ?_⟩
  have hclose : WrittenFrom [closeParen, closeParen] "))".toList :=
    (writtenFrom_nil.piece closeParen (by simp)).piece closeParen fun _ _ ↦ rfl
  have hvalues := writtenFrom_values values hclose
  -- behind the capture comes the blank before a value, or the parenthesis
  have hend : ∀ c ∈ (values.flatMap (fun value ↦
      ' ' :: (Piece.literal (escapeChars value.toList)).text) ++ "))".toList).head?,
      isIdentPart c = false := by
    cases values <;> simp <;> decide
  have hargs := (hvalues.piece capture.piece hend).blank
  have hname := hargs.piece predicate.piece
    (by rintro _ ⟨⟩; exact absorbs_predicateName predicate rfl)
  have hpredicate := (hname.piece openParen fun _ _ ↦ rfl).blank
  have hcapture := (hpredicate.piece capture.piece (by rintro _ ⟨⟩; rfl)).blank
  have hclosed := hcapture.piece closeParen fun _ _ ↦ rfl
  have hlabel := hclosed.piece label.piece (by rintro _ ⟨⟩; exact absorbs_label label rfl)
  have htext := (hlabel.piece openParen fun _ _ ↦ rfl).piece openParen fun _ _ ↦ rfl
  rw [← toList_restriction] at htext
  exact htext

/-! ## What the query says -/

/-- What the lexemes of a written text are read as. -/
theorem root_of_written {items : List Item} (hfits : ∀ i ∈ items, i.fits 256 = true)
    {text : String} (htext : Written items text) :
    (Production.root (significant text)).reports = [] ∧
      Tree.shapes (Production.root (significant text)).trees = Item.shapes items := by
  obtain ⟨ps, hps, hsignificant⟩ := significant_of_written htext
  obtain ⟨ts, hreads, hshows⟩ := readsEach_items (reads_item 256) items hfits hps
  rw [hsignificant, hreads.root_eq]
  exact ⟨rfl, hshows.shapes⟩

/-- What the pattern of the query says. -/
def restrictionShape (label capture predicate : String) (values : List String) : PatternShape :=
  ⟨[⟨label, true, capture⟩], [⟨predicate, .capture capture :: values.map .string⟩]⟩

theorem predicates_restrictionItem :
    (restrictionItem label capture predicate values).shape.predicates =
      [⟨predicate.string, .capture capture.string :: values.map .string⟩] := by
  simp [restrictionItem, restrictionArgs, Item.shape, Atom.shape, Member.shapes,
    Member.predicateShapes, inNames, inMark, Shape.predicates, Shape.predicatesAll, Arg.shape,
    Function.comp_def]

theorem pattern_restrictionItem :
    (restrictionItem label capture predicate values).shape.pattern =
      restrictionShape label.string capture.string predicate.string values := by
  rw [Shape.pattern, predicates_restrictionItem]
  simp [restrictionItem, restrictionShape, Item.shape, Atom.shape, Member.shapes, inNames, inMark,
    Shape.captures, Shape.capturesAll, Shape.pairs, Shape.targets, matchedType]

end Abstract

/-- A predicate without a regular expression is not warned about. -/
theorem Predicate.warning?_eq_none {p : Predicate} (h : (textTest p.name).1 ≠ some .pattern) :
    p.warning? = none := by
  rw [warning?]
  split
  · contradiction
  · rfl

namespace Document

open Abstract

/-- **What is read from the query**: nothing is wrong with it, and its only pattern is the one that
is meant. -/
theorem parse_restriction (label : Label) (capture : CaptureName) (predicate : PredicateName)
    (values : List String) (hpredicate : (textTest predicate.string).1 ≠ some .pattern) :
    (parse (restriction label capture predicate.string values)).diagnostics = [] ∧
      ∃ p, (parse (restriction label capture predicate.string values)).patterns = [p] ∧
        p.shape = restrictionShape label.string capture.string predicate.string values := by
  have hfits : ∀ i ∈ [restrictionItem label capture predicate values], i.fits 256 = true := by
    intro i hi
    obtain rfl := List.mem_singleton.mp hi
    rfl
  obtain ⟨hreports, hshapes⟩ :=
    root_of_written hfits (written_restriction label capture predicate values)
  have hitems : Item.shapes [restrictionItem label capture predicate values] =
      [(restrictionItem label capture predicate values).shape] := by
    rw [Item.shapes, Item.shapes]
  rw [hitems] at hshapes
  constructor
  · have hpredicates := Expr.predicatesAll_shapeAll
      (parse (restriction label capture predicate.string values)).exprs
    rw [shapeAll_exprs, hshapes, Shape.predicatesAll, Shape.predicatesAll, List.append_nil,
      predicates_restrictionItem] at hpredicates
    obtain ⟨p, hp, hshape⟩ := List.map_eq_singleton_iff.mp hpredicates.symm
    have hname : p.name = predicate.string := congrArg PredicateShape.name hshape
    have hnone : p.warning? = none := Predicate.warning?_eq_none (by rwa [hname])
    rw [diagnostics_parse, hreports, hp, List.filterMap_cons_none hnone]
    rfl
  · have hpatterns := shape_patterns (restriction label capture predicate.string values)
    rw [hshapes, List.map_singleton, pattern_restrictionItem] at hpatterns
    exact List.map_eq_singleton_iff.mp hpatterns

end Document

/-! ## Which texts pass -/

namespace Abstract

/-- A capture is named without its marker. -/
theorem withoutMarker_captureName (capture : CaptureName) :
    withoutMarker '@' capture.string = capture.string := by
  have hfirst : capture.first ≠ '@' := by
    intro h
    have hstart := capture.first_ok
    rw [h] at hstart
    contradiction
  have hstring : capture.string.toList = capture.first :: capture.rest := String.toList_ofList
  rw [withoutMarker, hstring, List.dropWhile_cons_of_neg (by simpa using hfirst), ← hstring,
    String.ofList_toList]

theorem exists_predicateName_question (first : Char) (rest : List Char)
    (hfirst : isNameStart first = true) (hrest : rest.all isPredicatePart = true) :
    ∃ predicate : PredicateName, predicate.string = String.ofList (first :: (rest ++ ['?'])) :=
  ⟨⟨⟨first, rest, hfirst, List.all_eq_true.mp hrest⟩, some '?', by rintro _ ⟨⟩; rfl⟩, rfl⟩

/-- The names of the tests that compare a text with values. -/
theorem exists_predicateName (name : String)
    (hname : name ∈ ["any-of?", "not-any-of?", "eq?", "not-eq?"]) :
    ∃ predicate : PredicateName, predicate.string = name := by
  simp only [List.mem_cons, List.not_mem_nil, or_false] at hname
  rcases hname with rfl | rfl | rfl | rfl
  · exact exists_predicateName_question 'a' "ny-of".toList rfl rfl
  · exact exists_predicateName_question 'n' "ot-any-of".toList rfl rfl
  · exact exists_predicateName_question 'e' "q".toList rfl rfl
  · exact exists_predicateName_question 'n' "ot-eq".toList rfl rfl

end Abstract

open Abstract (restrictionShape)

section Answers

variable {p : Pattern} {label capture predicate : String} {values : List String}

/-- A pattern that says what a restriction does has one capture and one clause. -/
theorem exists_of_shape_eq (h : p.shape = restrictionShape label capture predicate values) :
    (∃ pair, p.captures = [pair] ∧ pair.capture = capture) ∧
      ∃ span, p.clauses = [⟨predicate, .capture capture :: values.map .string, span⟩] := by
  obtain ⟨hcaptures, hclauses⟩ := PatternShape.mk.inj h
  obtain ⟨pair, hpair, hcapture⟩ := List.map_eq_singleton_iff.mp hcaptures
  obtain ⟨⟨name, args, span⟩, hclause, hshape⟩ := List.map_eq_singleton_iff.mp hclauses
  obtain ⟨rfl, rfl⟩ := PredicateShape.mk.inj hshape
  exact ⟨⟨pair, hpair, congrArg CaptureShape.capture hcapture⟩, span, hclause⟩

/-- **The test is put to the text of the capture.** -/
theorem Pattern.accepts_of_shape (h : p.shape = restrictionShape label capture predicate values)
    {test : TextTest} {negated : Bool} (htest : textTest predicate = (some test, negated))
    (text : String) :
    p.accepts capture text =
      some ((Clause.passes test (values.map .string) text).map (· != negated) != some false) := by
  obtain ⟨⟨pair, hpair, hcapture⟩, span, hclause⟩ := exists_of_shape_eq h
  have hcaptures : p.capturesName capture = true := by simp [capturesName, hpair, hcapture]
  rw [accepts, if_pos hcaptures, hclause, List.all_cons, List.all_nil, Bool.and_true,
    Clause.accepts, if_neg (by simp [Clause.subject?, ClauseArg.asCapture?]), htest]
  rfl

theorem passes_oneOf (values : List String) (text : String) :
    Clause.passes .oneOf (values.map .string) text = some (decide (text ∈ values)) := by
  have hvalues : (values.map ClauseArg.string).filterMap ClauseArg.asText? = values := by
    rw [List.filterMap_map]
    exact List.filterMap_some
  rw [Clause.passes, hvalues]
  simp [List.any_beq', List.contains_eq_mem]

/-- With a single value, both tests are the same. -/
theorem passes_equal (value text : String) :
    Clause.passes .equal ([value].map .string) text = some (decide (text ∈ [value])) := by
  rw [← passes_oneOf]
  simp [Clause.passes, ClauseArg.asText?]

end Answers

namespace Document

open Abstract

section Questions

variable (label : Label) (capture : CaptureName) (values : List String)

/-- A test that compares the text with the values lets the values pass, or the other texts. -/
theorem captureAccepts_restriction {predicate : PredicateName} {test : TextTest} {negated : Bool}
    (htest : textTest predicate.string = (some test, negated)) (hpattern : test ≠ .pattern)
    {text : String}
    (hpasses : Clause.passes test (values.map .string) text = some (decide (text ∈ values))) :
    (parse (restriction label capture predicate.string values)).captureAccepts capture.string text =
      (decide (text ∈ values) != negated) := by
  obtain ⟨-, p, hp, hshape⟩ := parse_restriction label capture predicate values
    (by simpa [htest] using hpattern)
  rw [captureAccepts, hp, withoutMarker_captureName, List.any_cons, List.any_nil, Bool.or_false,
    Pattern.accepts_of_shape hshape htest, hpasses, Option.map_some]
  cases decide (text ∈ values) != negated <;> rfl

theorem presentsPredicate_restriction {predicate : PredicateName} {test : TextTest} {negated : Bool}
    (htest : textTest predicate.string = (some test, negated)) (hpattern : test ≠ .pattern)
    (hmarker : withoutMarker '#' predicate.string = predicate.string) (argument : String) :
    (parse (restriction label capture predicate.string values)).presentsPredicate capture.string
      predicate.string argument = decide (argument ∈ values) := by
  obtain ⟨-, p, hp, hshape⟩ := parse_restriction label capture predicate values
    (by simpa [htest] using hpattern)
  obtain ⟨-, span, hclause⟩ := exists_of_shape_eq hshape
  rw [presentsPredicate, hp, List.flatMap_singleton, hclause, withoutMarker_captureName, hmarker]
  simp [Clause.subject?, ClauseArg.asCapture?, ClauseArg.asText?, List.any_map, Function.comp_def,
    List.any_beq', List.contains_eq_mem]

/-- **Quoted values come back.**  Whatever texts the values are, nothing is wrong with the query.
It lets exactly these texts pass if it asks for one of them, and exactly the others if it asks for
none of them; with a single value, asking for that one is the same.  As arguments of the predicate,
the query has these texts and no others. -/
theorem captureAccepts_quoted :
    (parse (restriction label capture "any-of?" values)).diagnostics = [] ∧
      (parse (restriction label capture "not-any-of?" values)).diagnostics = [] ∧
      (∀ text, (parse (restriction label capture "any-of?" values)).captureAccepts
        capture.string text = true ↔ text ∈ values) ∧
      (∀ text, (parse (restriction label capture "not-any-of?" values)).captureAccepts
        capture.string text = true ↔ text ∉ values) ∧
      (∀ value, (parse (restriction label capture "eq?" [value])).diagnostics = [] ∧
        ∀ text, (parse (restriction label capture "eq?" [value])).captureAccepts
            capture.string text =
          (parse (restriction label capture "any-of?" [value])).captureAccepts
            capture.string text) ∧
      (∀ value, (parse (restriction label capture "not-eq?" [value])).diagnostics = [] ∧
        ∀ text, (parse (restriction label capture "not-eq?" [value])).captureAccepts
            capture.string text =
          (parse (restriction label capture "not-any-of?" [value])).captureAccepts
            capture.string text) ∧
      (∀ argument, (parse (restriction label capture "any-of?" values)).presentsPredicate
        capture.string "any-of?" argument = true ↔ argument ∈ values) := by
  obtain ⟨anyOf, hanyOf⟩ := exists_predicateName "any-of?" (by simp)
  obtain ⟨notAnyOf, hnotAnyOf⟩ := exists_predicateName "not-any-of?" (by simp)
  obtain ⟨equal, hequal⟩ := exists_predicateName "eq?" (by simp)
  obtain ⟨notEqual, hnotEqual⟩ := exists_predicateName "not-eq?" (by simp)
  have hone : textTest anyOf.string = (some .oneOf, false) := by rw [hanyOf]; decide
  have hnone : textTest notAnyOf.string = (some .oneOf, true) := by rw [hnotAnyOf]; decide
  have hthis : textTest equal.string = (some .equal, false) := by rw [hequal]; decide
  have hother : textTest notEqual.string = (some .equal, true) := by rw [hnotEqual]; decide
  have hmarker : withoutMarker '#' anyOf.string = anyOf.string := by rw [hanyOf]; decide
  rw [← hanyOf, ← hnotAnyOf, ← hequal, ← hnotEqual]
  refine ⟨(parse_restriction label capture anyOf values (by simp [hone])).1,
    (parse_restriction label capture notAnyOf values (by simp [hnone])).1,
    fun text ↦ ?_, fun text ↦ ?_, fun value ↦ ⟨?_, fun text ↦ ?_⟩,
    fun value ↦ ⟨?_, fun text ↦ ?_⟩, fun argument ↦ ?_⟩
  · rw [captureAccepts_restriction label capture values hone (by decide) (passes_oneOf values text)]
    simp
  · rw [captureAccepts_restriction label capture values hnone (by decide)
      (passes_oneOf values text)]
    simp
  · exact (parse_restriction label capture equal [value] (by simp [hthis])).1
  · rw [captureAccepts_restriction label capture [value] hthis (by decide)
        (passes_equal value text),
      captureAccepts_restriction label capture [value] hone (by decide) (passes_oneOf [value] text)]
  · exact (parse_restriction label capture notEqual [value] (by simp [hother])).1
  · rw [captureAccepts_restriction label capture [value] hother (by decide)
        (passes_equal value text),
      captureAccepts_restriction label capture [value] hnone (by decide)
        (passes_oneOf [value] text)]
  · rw [presentsPredicate_restriction label capture values hone (by decide) hmarker]
    simp

end Questions

end Document

end Concord.Query
