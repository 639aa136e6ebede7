import Concord.Proofs.Query.Layout
import Concord.Proofs.Query.Lossless
import Concord.Proofs.Query.Recognition
import Concord.Proofs.Query.Showing

/-!
# Writing a query and reading it

Whatever way a query is written, reading the text gives back what the query says.

The lexer is dealt with in `Abstract.significant_of_written`, so what is left is a list of lexemes.
The productions read the lexemes of a written pattern whatever follows them, and what they build
shows what the pattern says.

* `Abstract.reads_args`, `Abstract.reads_predicate`, `Abstract.reads_atom` say so of the parts of a
  pattern.
* `Abstract.reads_item` says it of patterns, by induction on the levels that they nest.
* `Document.parse_written` says it of a whole text.
-/

set_option autoImplicit false

namespace Concord.Query

namespace Abstract

/-! ## Strings and arguments -/

open Production (ValueForm ReadsArguments readsArguments_token readsArguments_str)

/-- The lexemes between the quotes of a literal. -/
def valueLexemes (raw : List Char) : List Lexeme :=
  match raw with
  | [] => []
  | _ => [⟨.strVal, raw⟩]

/-- The lexeme of a quote. -/
def quote : Lexeme := ⟨.quote, ['"']⟩

/-- The tree of a literal. -/
def strTree (raw : List Char) : Tree Lexeme :=
  .node .str (.leaf quote :: ((valueLexemes raw).map .leaf ++ [.leaf quote]))

theorem lexemes_literal (raw : List Char) :
    (Piece.literal raw).lexemes = quote :: (valueLexemes raw ++ [quote]) := by
  cases raw <;> rfl

theorem valueForm_valueLexemes (raw : List Char) : ValueForm (valueLexemes raw) := by
  cases raw with
  | nil => exact .absent
  | cons c raw => exact .present rfl

/-- The value of a literal that spells a string is that string. -/
theorem value_strTree {raw : List Char} {value : String} (h : Spells raw value.toList)
    (t : Tree Token) :
    (StrLit.ofNode t ((Tree.mapAll Lexeme.anywhere
      (.leaf quote :: ((valueLexemes raw).map .leaf ++ [.leaf quote]))))).value = value := by
  have hraw : (StrLit.ofNode t ((Tree.mapAll Lexeme.anywhere
      (.leaf quote :: ((valueLexemes raw).map .leaf ++ [.leaf quote]))))).raw.getD [] = raw := by
    cases raw <;> rfl
  rw [StrLit.value, hraw, h.unescape_eq, String.ofList_toList]

theorem shows_strTree {raw : List Char} {value : String} (h : Spells raw value.toList) :
    Shows [strTree raw] [.str value] [] := by
  refine .node (by decide) ?_
  rw [Tree.shapes_singleton, Tree.map, Expr.ofTree?, Option.map_some, Expr.shape, value_strTree h]
  rfl

theorem argumentShapes_strTree {raw : List Char} {value : String}
    (h : Spells raw value.toList) : Tree.argumentShapes [strTree raw] = [.string value] := by
  have hvalue := value_strTree h (.node .str (Tree.mapAll Lexeme.anywhere
    (.leaf quote :: ((valueLexemes raw).map .leaf ++ [.leaf quote]))))
  rw [Tree.argumentShapes, Tree.mapAll, Tree.mapAll, strTree, Tree.map]
  simp [Argument.ofTree?, Argument.shape, hvalue]

theorem reads_arg (a : Arg) {ps : List Piece} (hps : ps ∈ a.spellings) :
    ∃ ts, ReadsArguments (ps.flatMap Piece.lexemes) ts ∧ Tree.argumentShapes ts = [a.shape] := by
  cases a with
  | capture name =>
    obtain rfl : ps = [name.piece] := hps
    exact ⟨_, readsArguments_token (.inl rfl), rfl⟩
  | str value =>
    obtain ⟨raw, hraw, rfl⟩ := hps
    refine ⟨[strTree raw], ?_, argumentShapes_strTree hraw⟩
    rw [List.flatMap_singleton, lexemes_literal]
    exact readsArguments_str rfl (valueForm_valueLexemes raw) rfl
  | ident label =>
    obtain rfl : ps = [label.piece] := hps
    rw [Label.piece]
    split
    · exact ⟨_, readsArguments_token (.inr (.inr rfl)), rfl⟩
    · exact ⟨_, readsArguments_token (.inr (.inl rfl)), rfl⟩

/-- Written arguments are read, and shown by what is built. -/
theorem reads_args (as : List Arg) {ps : List Piece} (hps : ps ∈ Arg.spellingsAll as) :
    ∃ ts, ReadsArguments (ps.flatMap Piece.lexemes) ts ∧
      Tree.argumentShapes ts = as.map Arg.shape := by
  induction as generalizing ps with
  | nil =>
    rw [(Language.mem_one ps).mp hps]
    exact ⟨[], Production.readsArguments_nil, rfl⟩
  | cons a as ih =>
    obtain ⟨u, hu, v, hv, rfl⟩ := Language.mem_mul.mp hps
    obtain ⟨us, hreads, hus⟩ := reads_arg a hu
    obtain ⟨ts, hreads', hts⟩ := ih hv
    refine ⟨us ++ ts, ?_, ?_⟩
    · rw [List.flatMap_append]
      exact hreads.append hreads'
    · rw [Tree.argumentShapes_append, hus, hts]
      rfl

/-! ## Fronts -/

/-- The lexemes of the words of the language have a first one, and its kind has the property. -/
def Fronts (p : TokenKind → Prop) (L : Language Piece) : Prop :=
  ∀ ps ∈ L, ∃ l ls, ps.flatMap Piece.lexemes = l :: ls ∧ p l.kind

theorem fronts_singleton {p : TokenKind → Prop} {q : Piece} {ps : List Piece} {l : Lexeme}
    {ls : List Lexeme} (hq : q.lexemes = l :: ls) (hl : p l.kind) :
    Fronts p ({q :: ps} : Set (List Piece)) := by
  rintro _ rfl
  refine ⟨l, ls ++ ps.flatMap Piece.lexemes, ?_, hl⟩
  rw [List.flatMap_cons, hq, List.cons_append]

theorem fronts_literals {p : TokenKind → Prop} (hp : p .quote) (value : String) :
    Fronts p (literals value) := by
  rintro _ ⟨raw, -, rfl⟩
  exact ⟨quote, _, by rw [List.flatMap_singleton, lexemes_literal], hp⟩

theorem Fronts.mul {p : TokenKind → Prop} {L : Language Piece} (hL : Fronts p L)
    (M : Language Piece) : Fronts p (L * M) := by
  intro ps hps
  obtain ⟨u, hu, v, -, rfl⟩ := Language.mem_mul.mp hps
  obtain ⟨l, ls, heq, hl⟩ := hL u hu
  exact ⟨l, ls ++ v.flatMap Piece.lexemes, by rw [List.flatMap_append, heq, List.cons_append], hl⟩

/-- What the text of a member can begin with. -/
def BeginsMember (m : Member) (k : TokenKind) : Prop :=
  k.startsPattern = true ∧ (m.opensGroup = true → k ≠ .ident ∧ k ≠ .underscore)

theorem fronts_atom (a : Atom) (mark : Option Repeat) (captures : List CaptureName) :
    Fronts (BeginsMember (.item (.plain a mark captures))) a.spellings := by
  cases a with
  | tree label subtype members =>
    rw [Atom.spellings]
    exact ((fronts_singleton rfl ⟨rfl, fun _ ↦ by decide⟩).mul _).mul _
  | group members =>
    rw [Atom.spellings]
    exact ((fronts_singleton rfl ⟨rfl, fun _ ↦ by decide⟩).mul _).mul _
  | alternation branches =>
    rw [Atom.spellings]
    exact ((fronts_singleton rfl ⟨rfl, fun _ ↦ by decide⟩).mul _).mul _
  | str value =>
    rw [Atom.spellings]
    exact fronts_literals ⟨rfl, fun _ ↦ by decide⟩ value
  | wildcard =>
    rw [Atom.spellings]
    exact fronts_singleton rfl ⟨rfl, fun h ↦ absurd h Bool.false_ne_true⟩
  | anchor =>
    rw [Atom.spellings]
    exact fronts_singleton rfl ⟨rfl, fun _ ↦ by decide⟩
  | negatedField name =>
    rw [Atom.spellings]
    exact fronts_singleton rfl ⟨rfl, fun _ ↦ by decide⟩

theorem fronts_member (m : Member) : Fronts (BeginsMember m) m.spellings := by
  cases m with
  | item i =>
    rw [Member.spellings]
    cases i with
    | plain atom mark captures =>
      rw [Item.spellings]
      exact (fronts_atom atom mark captures).mul _
    | field name value =>
      rw [Item.spellings]
      exact (fronts_singleton rfl ⟨rfl, fun h ↦ absurd h Bool.false_ne_true⟩).mul _
  | predicate name args =>
    rw [Member.spellings]
    exact ((fronts_singleton rfl ⟨rfl, fun _ ↦ by decide⟩).mul _).mul _

theorem fronts_item (i : Item) : Fronts (·.startsPattern = true) i.spellings := by
  intro ps hps
  have hmember : ps ∈ (Member.item i).spellings := by rwa [Member.spellings]
  obtain ⟨l, ls, heq, hl, -⟩ := fronts_member (.item i) ps hmember
  exact ⟨l, ls, heq, hl⟩

/-! ## Patterns -/

open Production (Reads ReadsEach NoSuffix PatternAhead SubtypeForm)

/-- Written patterns that fit into so many levels are read, and shown by what is built. -/
def ReadsItems (levels : Nat) : Prop :=
  ∀ i : Item, i.fits levels = true → ∀ ps ∈ i.spellings,
    ∃ t, Reads (Production.pattern levels) (ps.flatMap Piece.lexemes) [t] ∧ Shows [t] [i.shape] []

variable {levels : Nat}

theorem readsEach_items (h : ReadsItems levels) (is : List Item)
    (hfits : ∀ i ∈ is, i.fits levels = true) {ps : List Piece} (hps : ps ∈ Item.spellingsAll is) :
    ∃ ts, ReadsEach (Production.pattern levels) (ps.flatMap Piece.lexemes) ts ∧
      Shows ts (Item.shapes is) [] := by
  induction is generalizing ps with
  | nil =>
    rw [Item.spellingsAll] at hps
    rw [(Language.mem_one ps).mp hps]
    exact ⟨[], .nil, .nil⟩
  | cons i is ih =>
    rw [Item.spellingsAll] at hps
    obtain ⟨u, hu, v, hv, rfl⟩ := Language.mem_mul.mp hps
    obtain ⟨t, hreads, hshows⟩ := h i (hfits i List.mem_cons_self) u hu
    obtain ⟨ts, hreads', hshows'⟩ := ih (fun j hj ↦ hfits j (List.mem_cons_of_mem i hj)) hv
    obtain ⟨l, ls, heq, hl⟩ := fronts_item i u hu
    refine ⟨[t] ++ ts, ?_, hshows.append hshows'⟩
    rw [List.flatMap_append]
    exact .cons (by simp [heq]) (by simpa [heq, PatternAhead] using hl) hreads hreads'

theorem lexemes_lexeme {p : Piece} {kind : TokenKind} {text : List Char}
    (hp : p = .lexeme kind text) : ∃ l : Lexeme, p.lexemes = [l] ∧ l.kind = kind := by
  subst hp
  exact ⟨_, rfl, rfl⟩

theorem lexemes_label (l : Label) :
    ∃ m : Lexeme, l.piece.lexemes = [m] ∧ (m.kind = .ident ∨ m.kind = .underscore) ∧
      m.string = l.string := by
  refine ⟨_, rfl, ?_, rfl⟩
  dsimp only
  split
  · exact .inr rfl
  · exact .inl rfl

theorem lexemes_name (n : Name) :
    ∃ m : Lexeme, n.piece.lexemes = [m] ∧ m.kind = .ident ∧ m.string = n.string :=
  ⟨_, rfl, rfl, rfl⟩

theorem lexemes_predicateName (n : PredicateName) :
    ∃ m : Lexeme, n.piece.lexemes = [m] ∧ m.kind = .predicateName ∧ m.name = n.string :=
  ⟨_, rfl, rfl, rfl⟩

theorem lexemes_subtype (subtype : Option Name) :
    ∃ sub, (subtypePieces subtype).flatMap Piece.lexemes = sub ∧ SubtypeForm sub ∧
      sub.getLast?.map Lexeme.string = subtype.map Name.string := by
  cases subtype with
  | none => exact ⟨[], rfl, .absent, rfl⟩
  | some name => exact ⟨_, rfl, .present rfl rfl, rfl⟩

/-- The lexemes of a quantifier and of captures, and what they say. -/
theorem lexemes_suffix (mark : Option Repeat) (captures : List CaptureName) :
    ∃ (m : Option Lexeme) (names : List Lexeme),
      (suffixPieces mark captures).flatMap Piece.lexemes = m.toList ++ names ∧
      (∀ l ∈ m, l.kind.isQuantifier = true) ∧ (∀ l ∈ names, l.kind = .captureName) ∧
      m.map Lexeme.string = mark.map Repeat.string ∧
      names.map Lexeme.name = captures.map Word.string := by
  have hnames : (captures.map CaptureName.piece).flatMap Piece.lexemes =
      captures.map fun n ↦ ⟨.captureName, '@' :: n.text⟩ := by
    rw [List.flatMap_map, List.map_eq_flatMap]
    rfl
  refine ⟨mark.map fun r ↦ ⟨r.kind, r.string.toList⟩,
    captures.map fun n ↦ ⟨.captureName, '@' :: n.text⟩, ?_, ?_, ?_, ?_, ?_⟩
  · rw [suffixPieces, List.flatMap_append, hnames]
    cases mark with
    | none => rfl
    | some r => cases r <;> rfl
  · intro l hl
    obtain ⟨r, -, rfl⟩ := Option.map_eq_some_iff.mp hl
    cases r <;> rfl
  · intro l hl
    obtain ⟨n, -, rfl⟩ := List.mem_map.mp hl
    rfl
  · cases mark with
    | none => rfl
    | some r => cases r <;> rfl
  · rw [List.map_map]
    rfl

/-- A predicate is a pattern of one level. -/
theorem reads_predicate (name : PredicateName) (args : List Arg) {ps : List Piece}
    (hps : ps ∈ (Member.predicate name args).spellings) (hlevels : 0 < levels) :
    ∃ t, Reads (Production.pattern levels) (ps.flatMap Piece.lexemes) [t] ∧
      Shows [t] [] [⟨name.string, args.map Arg.shape⟩] := by
  obtain ⟨n, rfl⟩ := Nat.exists_eq_succ_of_ne_zero (Nat.ne_of_gt hlevels)
  rw [Member.spellings] at hps
  obtain ⟨v, hv, rfl⟩ := exists_of_mem_enclosed hps
  obtain ⟨ts, hreads, hargs⟩ := reads_args args hv
  obtain ⟨o, hopen, ho⟩ := lexemes_lexeme (p := openParen) rfl
  obtain ⟨c, hclose, hc⟩ := lexemes_lexeme (p := closeParen) rfl
  obtain ⟨m, hname, hm, hstring⟩ := lexemes_predicateName name
  have hshows := shows_predicate ho hm hc hargs
  rw [hstring] at hshows
  refine ⟨_, Production.reads_unsuffixed fun tail _ ↦ ?_, hshows⟩
  have hword : ([openParen, name.piece] ++ v ++ [closeParen]).flatMap Piece.lexemes ++ tail =
      o :: m :: (v.flatMap Piece.lexemes ++ c :: tail) := by
    simp [hopen, hname, hclose]
  rw [hword]
  exact Production.atom_predicate ho hm hc (hreads.closed hc tail)

theorem reads_member (h : ReadsItems levels) (m : Member)
    (hfits : m.fits (Item.fits levels) levels = true) {ps : List Piece} (hps : ps ∈ m.spellings) :
    ∃ t, Reads (Production.pattern levels) (ps.flatMap Piece.lexemes) [t] ∧
      Shows [t] (Member.shapes [m]) (Member.predicateShapes [m]) := by
  cases m with
  | item i =>
    rw [Member.spellings] at hps
    obtain ⟨t, hreads, hshows⟩ := h i hfits ps hps
    exact ⟨t, hreads, by simpa [Member.shapes, Member.predicateShapes] using hshows⟩
  | predicate name args =>
    obtain ⟨t, hreads, hshows⟩ := reads_predicate name args hps (by simpa [Member.fits] using hfits)
    exact ⟨t, hreads, by simpa [Member.shapes, Member.predicateShapes] using hshows⟩

theorem shapes_cons (m : Member) (ms : List Member) :
    Member.shapes (m :: ms) = Member.shapes [m] ++ Member.shapes ms ∧
      Member.predicateShapes (m :: ms) =
        Member.predicateShapes [m] ++ Member.predicateShapes ms := by
  cases m <;> simp [Member.shapes, Member.predicateShapes]

theorem readsEach_members (h : ReadsItems levels) (ms : List Member)
    (hfits : ∀ m ∈ ms, m.fits (Item.fits levels) levels = true) {ps : List Piece}
    (hps : ps ∈ Member.spellingsAll ms) :
    ∃ ts, ReadsEach (Production.pattern levels) (ps.flatMap Piece.lexemes) ts ∧
      Shows ts (Member.shapes ms) (Member.predicateShapes ms) := by
  induction ms generalizing ps with
  | nil =>
    rw [Member.spellingsAll] at hps
    rw [(Language.mem_one ps).mp hps]
    exact ⟨[], .nil, .nil⟩
  | cons m ms ih =>
    rw [Member.spellingsAll] at hps
    obtain ⟨u, hu, v, hv, rfl⟩ := Language.mem_mul.mp hps
    obtain ⟨t, hreads, hshows⟩ := reads_member h m (hfits m List.mem_cons_self) hu
    obtain ⟨ts, hreads', hshows'⟩ := ih (fun n hn ↦ hfits n (List.mem_cons_of_mem m hn)) hv
    obtain ⟨l, ls, heq, hl, -⟩ := fronts_member m u hu
    obtain ⟨hshapes, hpredicates⟩ := shapes_cons m ms
    refine ⟨[t] ++ ts, ?_, ?_⟩
    · rw [List.flatMap_append]
      exact .cons (by simp [heq]) (by simpa [heq, PatternAhead] using hl) hreads hreads'
    · rw [hshapes, hpredicates]
      exact hshows.append hshows'

/-- The production of atoms reads some pieces, whatever follows, and what is built shows the
expression. -/
def ReadsAtom (levels : Nat) (ps : List Piece) (s : Shape) : Prop :=
  ∃ t, (∀ tail, Production.atom (Production.pattern levels)
    (ps.flatMap Piece.lexemes ++ tail) = ⟨[t], [], tail⟩) ∧ Shows [t] [s] []

theorem reads_tree (h : ReadsItems levels) (label : Label) (subtype : Option Name)
    (members : List Member) (hfits : ∀ m ∈ members, m.fits (Item.fits levels) levels = true)
    {ps : List Piece} (hps : ps ∈ (Atom.tree label subtype members).spellings) :
    ReadsAtom levels ps (Atom.tree label subtype members).shape := by
  rw [Atom.spellings] at hps
  obtain ⟨v, hv, rfl⟩ := exists_of_mem_enclosed hps
  obtain ⟨o, hopen, ho⟩ := lexemes_lexeme (p := openParen) rfl
  obtain ⟨c, hclose, hc⟩ := lexemes_lexeme (p := closeParen) rfl
  obtain ⟨ts, hreads, hshows⟩ := readsEach_members h members hfits hv
  obtain ⟨n, hlabel, hn, hstring⟩ := lexemes_label label
  obtain ⟨sub, hpieces, hsub, hsubtype⟩ := lexemes_subtype subtype
  have htree := shows_tree ho hn hsub hc hshows
  rw [hstring, hsubtype] at htree
  refine ⟨_, fun tail ↦ ?_, by rw [Atom.shape]; exact htree⟩
  have hword : (openParen :: label.piece :: subtypePieces subtype ++ v ++ [closeParen]).flatMap
      Piece.lexemes ++ tail = o :: n :: (sub ++ (v.flatMap Piece.lexemes ++ c :: tail)) := by
    simp [hopen, hlabel, hclose, hpieces]
  rw [hword]
  exact Production.atom_tree ho hn hsub hc hreads.patternAhead
    (hreads.patterns_closed (Production.pattern_advances levels) (by decide) hc tail)

theorem reads_group (h : ReadsItems levels) (members : List Member)
    (hmembers : ∀ m ∈ members, m.fits (Item.fits levels) levels = true)
    (hopens : members.head?.any Member.opensGroup = true) {ps : List Piece}
    (hps : ps ∈ (Atom.group members).spellings) :
    ReadsAtom levels ps (Atom.group members).shape := by
  rw [Atom.spellings] at hps
  obtain ⟨v, hv, rfl⟩ := exists_of_mem_enclosed hps
  obtain ⟨o, hopen, ho⟩ := lexemes_lexeme (p := openParen) rfl
  obtain ⟨c, hclose, hc⟩ := lexemes_lexeme (p := closeParen) rfl
  obtain ⟨ts, hreads, hshows⟩ := readsEach_members h members hmembers hv
  refine ⟨_, fun tail ↦ ?_, by rw [Atom.shape]; exact shows_group (o := o) (c := c) hshows⟩
  cases members with
  | nil => contradiction
  | cons m ms =>
    rw [Member.spellingsAll] at hv
    obtain ⟨x, hx, y, -, rfl⟩ := Language.mem_mul.mp hv
    -- the first member is where the group is told from a tree
    obtain ⟨l, ls, heq, hl, hname⟩ := fronts_member m x hx
    have hbody : (x ++ y).flatMap Piece.lexemes = l :: (ls ++ y.flatMap Piece.lexemes) := by
      rw [List.flatMap_append, heq, List.cons_append]
    have hword : ([openParen] ++ (x ++ y) ++ [closeParen]).flatMap Piece.lexemes ++ tail =
        o :: (l :: (ls ++ y.flatMap Piece.lexemes) ++ c :: tail) := by
      rw [List.flatMap_append, List.flatMap_append, hbody]
      simp [hopen, hclose]
    have hclosed := hreads.patterns_closed (Production.pattern_advances levels) (by decide) hc tail
    rw [hbody] at hclosed
    rw [hword]
    exact Production.atom_group ho hc hl (hname hopens) hclosed

theorem reads_alternation (h : ReadsItems levels) (branches : List Item)
    (hfits : ∀ i ∈ branches, i.fits levels = true) {ps : List Piece}
    (hps : ps ∈ (Atom.alternation branches).spellings) :
    ReadsAtom levels ps (Atom.alternation branches).shape := by
  rw [Atom.spellings] at hps
  obtain ⟨v, hv, rfl⟩ := exists_of_mem_enclosed hps
  obtain ⟨o, hopen, ho⟩ := lexemes_lexeme (p := openBracket) rfl
  obtain ⟨c, hclose, hc⟩ := lexemes_lexeme (p := closeBracket) rfl
  obtain ⟨ts, hreads, hshows⟩ := readsEach_items h branches hfits hv
  refine ⟨_, fun tail ↦ ?_, by rw [Atom.shape]; exact shows_alternation (o := o) (c := c) hshows⟩
  have hword : ([openBracket] ++ v ++ [closeBracket]).flatMap Piece.lexemes ++ tail =
      o :: (v.flatMap Piece.lexemes ++ c :: tail) := by
    simp [hopen, hclose]
  rw [hword]
  exact Production.atom_alternation ho hc
    (hreads.patterns_closed (Production.pattern_advances levels) (by decide) hc tail)

/-- **Written atoms are read**, given that the patterns in them are. -/
theorem reads_atom (h : ReadsItems levels) (a : Atom)
    (hfits : a.fits (Item.fits levels) levels = true) {ps : List Piece} (hps : ps ∈ a.spellings) :
    ReadsAtom levels ps a.shape := by
  cases a with
  | tree label subtype members =>
    rw [Atom.fits, List.all_eq_true] at hfits
    exact reads_tree h label subtype members hfits hps
  | group members =>
    rw [Atom.fits, Bool.and_eq_true, List.all_eq_true] at hfits
    exact reads_group h members hfits.1 hfits.2 hps
  | alternation branches =>
    rw [Atom.fits, List.all_eq_true] at hfits
    exact reads_alternation h branches hfits hps
  | str value =>
    rw [Atom.spellings] at hps
    obtain ⟨raw, hraw, rfl⟩ := hps
    refine ⟨strTree raw, fun tail ↦ ?_, by rw [Atom.shape]; exact shows_strTree hraw⟩
    rw [List.flatMap_singleton, lexemes_literal, List.cons_append, List.append_assoc]
    exact Production.atom_str rfl (valueForm_valueLexemes raw) rfl tail
  | wildcard =>
    rw [Atom.spellings] at hps
    obtain rfl := hps
    refine ⟨_, fun tail ↦ Production.atom_wildcard rfl tail, ?_⟩
    rw [Atom.shape]
    exact .node (by decide) rfl
  | anchor =>
    rw [Atom.spellings] at hps
    obtain rfl := hps
    refine ⟨_, fun tail ↦ Production.atom_anchor rfl tail, ?_⟩
    rw [Atom.shape]
    exact .node (by decide) rfl
  | negatedField name =>
    rw [Atom.spellings] at hps
    obtain rfl := hps
    obtain ⟨n, hname, hn, hstring⟩ := lexemes_name name
    obtain ⟨b, hbang, hb⟩ := lexemes_lexeme (p := .lexeme .bang ['!']) rfl
    have hshows := shows_negatedField hb hn
    rw [hstring] at hshows
    refine ⟨_, fun tail ↦ ?_, by rw [Atom.shape]; exact hshows⟩
    have hword : [.lexeme .bang ['!'], name.piece].flatMap Piece.lexemes ++ tail =
        b :: n :: tail := by
      simp [hbang, hname]
    rw [hword]
    exact Production.atom_negatedField hb hn tail

/-- What stands in a quantifier shows a quantified expression. -/
theorem shows_inQuantifier {t : Tree Lexeme} {s : Shape} (h : Shows [t] [s] [])
    {m : Option Lexeme} {mark : Option Repeat} (hm : ∀ l ∈ m, l.kind.isQuantifier = true)
    (hmark : m.map Lexeme.string = mark.map Repeat.string) :
    ∃ u, Production.inQuantifier m [t] = [u] ∧ Shows [u] [inMark mark s] [] := by
  cases mark with
  | none =>
    obtain rfl := Option.map_eq_none_iff.mp hmark
    exact ⟨t, rfl, h⟩
  | some r =>
    obtain ⟨l, rfl, hl⟩ := Option.map_eq_some_iff.mp hmark
    obtain ⟨hshapes, -, hleaves⟩ := h.around [] [l]
    have htoken : tokenOf? TokenKind.isQuantifier (([] ++ [l]).map Lexeme.anywhere) =
        some l.anywhere := by
      simp [tokenOf?, Lexeme.anywhere, hm l rfl]
    have hstring : l.anywhere.string = r.string := hl
    have hnode := Tree.shapes_quantifier ([].map .leaf ++ [t] ++ [l].map .leaf)
    rw [hshapes, Tree.tokensOf, hleaves, htoken, Option.map_some, hstring] at hnode
    exact ⟨_, rfl, .node (by decide) hnode⟩

/-- What stands in captures shows a captured expression. -/
theorem shows_inCaptures {t : Tree Lexeme} {s : Shape} (h : Shows [t] [s] [])
    {names : List Lexeme} {captures : List CaptureName}
    (hnames : ∀ l ∈ names, l.kind = .captureName)
    (hcaptures : names.map Lexeme.name = captures.map Word.string) :
    ∃ u, Production.inCaptures names [t] = [u] ∧ Shows [u] [inNames captures s] [] := by
  have hempty : names.isEmpty = captures.isEmpty := by
    have h := congrArg List.isEmpty hcaptures
    rwa [List.isEmpty_map, List.isEmpty_map] at h
  rw [Production.inCaptures, inNames, hempty]
  split
  · exact ⟨t, rfl, h⟩
  · obtain ⟨hshapes, -, hleaves⟩ := h.around [] names
    have hfilter : (([] ++ names).map Lexeme.anywhere).filter (·.kind = TokenKind.captureName) =
        names.map Lexeme.anywhere := by
      rw [List.nil_append, List.filter_eq_self]
      intro t ht
      obtain ⟨l, hl, rfl⟩ := List.mem_map.mp ht
      exact decide_eq_true (hnames l hl)
    have hshown : (names.map Lexeme.anywhere).map Token.name = captures.map Word.string := by
      rw [List.map_map, ← hcaptures]
      rfl
    have hnode := Tree.shapes_capture ([].map .leaf ++ [t] ++ names.map .leaf)
    rw [hshapes, Tree.tokensOf, hleaves, captureNamesOf, hfilter, hshown] at hnode
    exact ⟨_, rfl, .node (by decide) hnode⟩

/-- **Written patterns are read**, and the trees show what the patterns say.  By induction on the
levels that are left, which both the productions and `Item.fits` count down. -/
theorem reads_item (levels : Nat) : ReadsItems levels := by
  induction levels with
  | zero =>
    intro i hfits
    cases i <;> exact absurd hfits Bool.false_ne_true
  | succ levels ih =>
    intro i hfits ps hps
    cases i with
    | plain atom mark captures =>
      rw [Item.spellings] at hps
      obtain ⟨u, hu, _, rfl, rfl⟩ := Language.mem_mul.mp hps
      rw [Item.fits] at hfits
      obtain ⟨t, hatom, hshows⟩ := reads_atom ih atom hfits hu
      obtain ⟨m, names, hsuffix, hm, hnames, hmark, hcaptures⟩ := lexemes_suffix mark captures
      obtain ⟨t', ht', hshows'⟩ := shows_inQuantifier hshows hm hmark
      obtain ⟨t'', ht'', hshows''⟩ := shows_inCaptures hshows' hnames hcaptures
      have hreads := Production.reads_suffixed hatom hm hnames
      rw [ht', ht''] at hreads
      refine ⟨t'', ?_, by rw [Item.shape]; exact hshows''⟩
      rw [List.flatMap_append, hsuffix]
      exact hreads
    | field name value =>
      rw [Item.spellings] at hps
      obtain ⟨_, rfl, v, hv, rfl⟩ := Language.mem_mul.mp hps
      rw [Item.fits] at hfits
      obtain ⟨t, hreads, hshows⟩ := ih value hfits v hv
      obtain ⟨n, hname, hn, hstring⟩ := lexemes_name name
      obtain ⟨c, hcolon, hc⟩ := lexemes_lexeme (p := .lexeme .colon [':']) rfl
      obtain ⟨l, ls, heq, hl⟩ := fronts_item value v hv
      have hfield := shows_field (c := c) hn hshows
      rw [hstring] at hfield
      refine ⟨_, Production.reads_unsuffixed fun tail htail ↦ ?_, by rw [Item.shape]; exact hfield⟩
      have hword : ([name.piece, .lexeme .colon [':']] ++ v).flatMap Piece.lexemes ++ tail =
          n :: c :: (v.flatMap Piece.lexemes ++ tail) := by
        simp [hname, hcolon]
      rw [hword]
      exact Production.atom_field hn hc (by simp [heq]) (by simpa [heq, PatternAhead] using hl)
        (hreads tail htail)

theorem shapes_eq_map (is : List Item) : Item.shapes is = is.map Item.shape := by
  induction is with
  | nil => rw [Item.shapes, List.map_nil]
  | cons i is ih => rw [Item.shapes, ih, List.map_cons]

end Abstract

/-! ## Whole texts -/

open Abstract

/-- **What is written is read.**  However patterns are written that nest no deeper than the parser
allows, the text has no error, and its expressions say what the patterns say. -/
theorem Document.parse_written (items : List Item) (hfits : ∀ i ∈ items, i.fits 256 = true)
    (text : String) (htext : Written items text) :
    Diagnostic.anyError (Document.parse text).diagnostics = false ∧
      (Document.parse text).exprs.map Expr.shape = items.map Item.shape := by
  obtain ⟨ps, hps, hsignificant⟩ := significant_of_written htext
  obtain ⟨ts, hreads, hshows⟩ := readsEach_items (reads_item 256) items hfits hps
  have hroot : Production.root (significant text) = ⟨ts, [], []⟩ := by
    have hpatterns : Production.root (ps.flatMap Piece.lexemes ++ []) =
        Parsed.andThen ⟨ts, [], []⟩ Production.root :=
      hreads.patterns_eq (Production.pattern_advances 256) (fun _ _ ↦ rfl) Production.noSuffix_nil
    rw [← hsignificant, List.append_nil] at hpatterns
    rw [hpatterns]
    exact Production.andThen_nothing Production.root_nil
  constructor
  · rw [anyError_parse_iff, hroot]
  · have hbare : Tree.bareAll (Tree.woven ts (tokenize text)) = ts := by
      have hleaves := Production.leavesAll_trees_root (significant text)
      rw [hroot] at hleaves
      exact Tree.bareAll_woven hleaves.symm
    rw [exprs_parse, hroot, ← Tree.shapes_bareAll, hbare, hshows.shapes, shapes_eq_map]

namespace Abstract

/-- A capture named `x`. -/
def sampleCapture : CaptureName := ⟨'x', [], rfl, by simp⟩

/-- A node type `a`. -/
def sampleLabel : Label := ⟨'a', [], rfl, by simp⟩

/-- A predicate named `eq?`. -/
def samplePredicate : PredicateName :=
  ⟨⟨'e', ['q'], rfl, by simp; decide⟩, some '?', by simp; decide⟩

/-- A predicate about the capture, whose string is a quote. -/
def sampleMember : Member := .predicate samplePredicate [.capture sampleCapture, .str "\""]

/-- A captured tree with the predicate in it. -/
def sample : List Item := [.plain (.tree sampleLabel none [sampleMember]) none [sampleCapture]]

/-- A way to write it, with a comment at the end. -/
def sampleText : String := "(a (#eq? @x \"\\\"\")) @x;!"

theorem written_sample : Written sample sampleText := by
  have hvalue : [.literal ['\\', '"']] ∈ literals "\"" :=
    ⟨['\\', '"'], .escaped (by decide) .nil, rfl⟩
  have hmember : [openParen, samplePredicate.piece, sampleCapture.piece, .literal ['\\', '"'],
      closeParen] ∈ sampleMember.spellings := by
    simp only [sampleMember, Member.spellings, Arg.spellingsAll, Arg.spellings, mul_one,
      Language.mem_mul]
    exact ⟨_, ⟨_, rfl, _, ⟨_, rfl, _, hvalue, rfl⟩, rfl⟩, _, rfl, rfl⟩
  have hpieces : [openParen, sampleLabel.piece, openParen, samplePredicate.piece,
      sampleCapture.piece, .literal ['\\', '"'], closeParen, closeParen, sampleCapture.piece] ∈
      Item.spellingsAll sample := by
    simp only [sample, Item.spellingsAll, Item.spellings, Atom.spellings, Member.spellingsAll,
      mul_one, Language.mem_mul]
    exact ⟨_, ⟨_, ⟨_, rfl, _, hmember, rfl⟩, _, rfl, rfl⟩, _, rfl, rfl⟩
  refine ⟨_, hpieces, [], _, .nil, ?_, rfl⟩
  have hblank : Gap [' '] := .blank rfl .nil
  have hend : Rendering [] ";!".toList := .comment (List.forall_mem_singleton.mpr (by decide))
  have hcapture : Rendering [sampleCapture.piece] "@x;!".toList :=
    .cons .nil (by rintro _ _ ⟨⟩; rfl) hend
  have hclose : Rendering [closeParen, closeParen, sampleCapture.piece] ")) @x;!".toList :=
    .cons .nil (by rintro _ _ ⟨⟩; rfl) (.cons hblank (by rintro ⟨⟩) hcapture)
  have hargs : Rendering [sampleCapture.piece, .literal ['\\', '"'], closeParen, closeParen,
      sampleCapture.piece] "@x \"\\\"\")) @x;!".toList :=
    .cons hblank (by rintro ⟨⟩) (.cons .nil (by rintro _ _ ⟨⟩; rfl) hclose)
  have hpredicate : Rendering [openParen, samplePredicate.piece, sampleCapture.piece,
      .literal ['\\', '"'], closeParen, closeParen, sampleCapture.piece]
      "(#eq? @x \"\\\"\")) @x;!".toList :=
    .cons .nil (by rintro _ _ ⟨⟩; rfl) (.cons hblank (by rintro ⟨⟩) hargs)
  exact .cons .nil (by rintro _ _ ⟨⟩; rfl) (.cons hblank (by rintro ⟨⟩) hpredicate)

end Abstract

/-- The sample fits, its text is a way to write it, and reads back as what it says. -/
theorem Document.parse_written_sample :
    (∀ i ∈ sample, i.fits 256 = true) ∧ Written sample sampleText ∧
      Diagnostic.anyError (Document.parse sampleText).diagnostics = false ∧
      (Document.parse sampleText).exprs.map Expr.shape =
        [.captured ["x"] (some (.tree (some "a") none []
          [⟨"eq?", [.capture "x", .string "\""]⟩]))] := by
  have hfits : ∀ i ∈ sample, i.fits 256 = true := by decide
  obtain ⟨hclean, hshape⟩ := Document.parse_written sample hfits sampleText written_sample
  exact ⟨hfits, written_sample, hclean, hshape⟩

end Concord.Query
