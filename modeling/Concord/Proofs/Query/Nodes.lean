import Concord.Proofs.Query.Capturing
import Concord.Proofs.Query.Quotes

/-!
# What every node is made of

The forms of nodes hold of every text, with both quotes for a string.  So each accessor looks at a
place among the children of its node and nowhere else: what a production could not use is in an
error node, and the tokens in there are no children of the node around it.

* `Form.exact kind` is the exact form of the nodes of a kind.
* `Form.exists_append_of_mem_mul` and the lemmas behind it cut children by the form of their node.
* `Tree.TypeParts`, `Tree.FieldParts` and `Tree.PredicateParts` are the children of a tree, a field
  and a predicate, cut like this; the lemmas on them say what the accessors answer.
* `Argument.Denotes` says which argument a child of a predicate is.
* `Document.parse_nodes` has all of it for every text.
-/

set_option autoImplicit false

open Computability

namespace Concord.Query

/-! ## Children cut by their form -/

namespace Form

/-- The children that a node of a kind has: a string has both of its quotes, and everything else is
as its form says. -/
def exact : NodeKind → Language ChildKind
  | .str => literal
  | kind => children kind

theorem exact_of_ne {kind : NodeKind} (h : kind ≠ .str) : exact kind = children kind := by
  cases kind with
  | str => contradiction
  | _ => rfl

section Cutting

variable {ts : List (Tree Lexeme)} {L M : Language ChildKind} {k : TokenKind}

theorem exists_append_of_mem_mul (h : ts.map Tree.childKind ∈ L * M) :
    ∃ us vs, ts = us ++ vs ∧ us.map Tree.childKind ∈ L ∧ vs.map Tree.childKind ∈ M := by
  obtain ⟨u, hu, v, hv, heq⟩ := Language.mem_mul.mp h
  obtain ⟨us, vs, rfl, rfl, rfl⟩ := List.map_eq_append_iff.mp heq.symm
  exact ⟨us, vs, rfl, hu, hv⟩

theorem exists_leaf_of_mem_token (h : ts.map Tree.childKind ∈ token k) :
    ∃ l, ts = [.leaf l] ∧ l.kind = k := by
  obtain ⟨t, rfl, ht⟩ := List.map_eq_singleton_iff.mp h
  cases t with
  | leaf l => exact ⟨l, rfl, ChildKind.token.inj ht⟩
  | node kind children => contradiction

/-- A token that may be missing. -/
theorem exists_option_of_mem (h : ts.map Tree.childKind ∈ 1 + token k) :
    ∃ o : Option Lexeme, ts = o.toList.map .leaf ∧ ∀ l ∈ o, l.kind = k := by
  rcases (Language.mem_add _ _ _).mp h with h | h
  · rw [Language.mem_one, List.map_eq_nil_iff] at h
    exact ⟨none, h, by simp⟩
  · obtain ⟨l, rfl, hl⟩ := exists_leaf_of_mem_token h
    exact ⟨some l, rfl, by simpa using hl⟩

theorem exists_node_of_mem_anyNode (h : ts.map Tree.childKind ∈ anyNode) :
    ∃ kind children, ts = [.node kind children] := by
  obtain ⟨k, -, hk⟩ := h
  obtain ⟨t, rfl, ht⟩ := List.map_eq_singleton_iff.mp hk
  cases t with
  | leaf l => contradiction
  | node kind children => exact ⟨kind, children, rfl⟩

/-- Where only nodes stand, there are no tokens. -/
theorem leafChildren_of_mem_kstar (h : ts.map Tree.childKind ∈ anyNode∗) :
    Tree.leafChildren ts = [] := by
  have hletters : EachLetter (token? · = none) anyNode∗ := (eachLetter_anyNode fun _ _ ↦ rfl).kstar
  refine List.eq_nil_iff_forall_not_mem.mpr fun l hl ↦ ?_
  have hnone := hletters _ h _ (List.mem_map_of_mem (Tree.mem_leafChildren.mp hl))
  contradiction

end Cutting

end Form

namespace Tree

variable {kind : NodeKind} {children : List (Tree Token)} {ts : List (Tree Lexeme)}

theorem quoted_of_bare (h : ∀ b ∈ bare (node kind children), b.Quoted) :
    (kind = .str → (bareAll children).map childKind ∈ Form.literal) ∧
      ∀ b ∈ bareAll children, b.Quoted := by
  cases h _ (List.mem_singleton_self _) with
  | node hstr h => exact ⟨hstr, h⟩

/-- What goes from a node to its children goes to what stands inside of it. -/
theorem Within.of_bare {p : Tree Lexeme → Prop}
    (hp : ∀ kind ts, p (node kind ts) → ∀ b ∈ ts, p b) {n t : Tree Token} (hn : n.Within t)
    (h : ∀ b ∈ bare t, p b) : ∀ b ∈ bare n, p b := by
  induction hn with
  | refl => exact h
  | @child kind children c hc _ ih =>
    have hnode := hp kind _ (h _ (List.mem_singleton_self _))
    exact ih fun b hb ↦ hnode b (mem_bareAll.mpr ⟨c, hc, hb⟩)

/-! ## The type and the subtype of a tree -/

/-- The children of a tree: an opener, what the tree names, nodes, and maybe a closer. -/
inductive TypeParts : List (Tree Lexeme) → (names : List Lexeme) → Prop
  | intro {opener : Lexeme} {names : List Lexeme} {nodes : List (Tree Lexeme)}
    {closer : Option Lexeme} (hopener : opener.kind = .parenOpen)
    (hnames : Form.Naming (names.map Lexeme.kind)) (hnodes : leafChildren nodes = [])
    (hcloser : ∀ l ∈ closer, l.kind = .parenClose) :
    TypeParts (leaf opener :: (names.map leaf ++ nodes ++ closer.toList.map leaf)) names

theorem exists_type_of_mem (h : ts.map childKind ∈ Form.token .ident + Form.token .underscore) :
    ∃ l, ts = [leaf l] ∧ (l.kind = .ident ∨ l.kind = .underscore) := by
  rcases (Language.mem_add _ _ _).mp h with h | h
  · obtain ⟨l, rfl, hl⟩ := Form.exists_leaf_of_mem_token h
    exact ⟨l, rfl, .inl hl⟩
  · obtain ⟨l, rfl, hl⟩ := Form.exists_leaf_of_mem_token h
    exact ⟨l, rfl, .inr hl⟩

/-- A type with its subtype, as far as they are there. -/
theorem exists_names_of_mem
    (h : ts.map childKind ∈ 1 + (Form.token .ident + Form.token .underscore) *
      (1 + Form.token .slash * (1 + Form.token .ident))) :
    ∃ names : List Lexeme, ts = names.map leaf ∧ Form.Naming (names.map Lexeme.kind) := by
  rcases (Language.mem_add _ _ _).mp h with h | h
  · rw [Language.mem_one, List.map_eq_nil_iff] at h
    exact ⟨[], h, .nothing⟩
  obtain ⟨_, _, rfl, htype, hrest⟩ := Form.exists_append_of_mem_mul h
  obtain ⟨type, rfl, hkind⟩ := exists_type_of_mem htype
  rcases (Language.mem_add _ _ _).mp hrest with hnil | hrest
  · rw [Language.mem_one, List.map_eq_nil_iff] at hnil
    rw [hnil]
    exact ⟨[type], rfl, .type hkind⟩
  obtain ⟨_, _, rfl, hslash, hname⟩ := Form.exists_append_of_mem_mul hrest
  obtain ⟨slash, rfl, hmark⟩ := Form.exists_leaf_of_mem_token hslash
  obtain ⟨_ | name, rfl, hident⟩ := Form.exists_option_of_mem hname
  · refine ⟨[type, slash], rfl, ?_⟩
    rw [List.map_cons, List.map_singleton, hmark]
    exact .slash hkind
  · refine ⟨[type, slash, name], rfl, ?_⟩
    rw [List.map_cons, List.map_cons, List.map_singleton, hmark, hident name rfl]
    exact .subtype hkind

theorem exists_typeParts (h : ts.map childKind ∈ Form.children .tree) :
    ∃ names, TypeParts ts names := by
  obtain ⟨_, _, rfl, hopen, hrest⟩ := Form.exists_append_of_mem_mul h
  obtain ⟨opener, rfl, hopener⟩ := Form.exists_leaf_of_mem_token hopen
  obtain ⟨_, _, rfl, hbody, hclose⟩ := Form.exists_append_of_mem_mul hrest
  obtain ⟨closer, rfl, hcloser⟩ := Form.exists_option_of_mem hclose
  obtain ⟨_, nodes, rfl, hnames, hnodes⟩ := Form.exists_append_of_mem_mul hbody
  obtain ⟨names, rfl, hnaming⟩ := exists_names_of_mem hnames
  exact ⟨names, .intro hopener hnaming (Form.leafChildren_of_mem_kstar hnodes) hcloser⟩

/-- **The type and the subtype of a tree stand at their places**: the type right behind the opener,
and the subtype right behind the slash that follows. -/
theorem TypeParts.typeOf {names : List Lexeme} (h : TypeParts (bareAll children) names) :
    nodeTypeOf? (leafChildren children) = names[0]?.map Lexeme.string ∧
      subtypeOf? (leafChildren children) = names[2]?.map Lexeme.string := by
  rw [nodeTypeOf?_eq, subtypeOf?_eq, ← leafChildren_bareAll]
  generalize bareAll children = ts at h
  obtain @⟨opener, names, nodes, closer, hopener, hnaming, hnodes, hcloser⟩ := h
  rw [leafChildren, leafChildren_append, leafChildren_append, leafChildren_map_leaf,
    leafChildren_map_leaf, hnodes, List.append_nil]
  generalize hks : names.map Lexeme.kind = ks at hnaming
  cases hnaming with
  | nothing =>
    obtain rfl := List.map_eq_nil_iff.mp hks
    cases closer with
    | none => simp [hopener]
    | some c => simp [hopener, hcloser c rfl]
  | type hk =>
    have hne := Form.ne_slash hk
    obtain ⟨type, rfl, rfl⟩ := List.map_eq_singleton_iff.mp hks
    cases closer with
    | none => simp [hopener, hk, hne]
    | some c => simp [hopener, hk, hne, hcloser c rfl]
  | slash hk =>
    have hne := Form.ne_slash hk
    simp only [List.map_eq_cons_iff, List.map_eq_nil_iff] at hks
    obtain ⟨type, _, rfl, rfl, slash, _, rfl, hslash, rfl⟩ := hks
    cases closer with
    | none => simp [hopener, hk, hne, hslash]
    | some c => simp [hopener, hk, hne, hslash, hcloser c rfl]
  | subtype hk =>
    have hne := Form.ne_slash hk
    simp only [List.map_eq_cons_iff, List.map_eq_nil_iff] at hks
    obtain ⟨type, _, rfl, rfl, slash, _, rfl, hslash, sub, _, rfl, hsub, rfl⟩ := hks
    simp [hopener, hk, hne, hslash, hsub]

/-! ## The name of a field -/

/-- The children of a field: a name, a colon, and maybe a node. -/
inductive FieldParts : List (Tree Lexeme) → (name : Lexeme) → Prop
  | intro {name colon : Lexeme} {value : Option (Tree Lexeme)} (hname : name.kind = .ident)
    (hcolon : colon.kind = .colon) (hvalue : leafChildren value.toList = []) :
    FieldParts (leaf name :: leaf colon :: value.toList) name

theorem exists_fieldParts (h : ts.map childKind ∈ Form.children .field) :
    ∃ name, FieldParts ts name := by
  obtain ⟨_, _, rfl, hident, hrest⟩ := Form.exists_append_of_mem_mul h
  obtain ⟨name, rfl, hname⟩ := Form.exists_leaf_of_mem_token hident
  obtain ⟨_, _, rfl, hmark, hvalue⟩ := Form.exists_append_of_mem_mul hrest
  obtain ⟨colon, rfl, hcolon⟩ := Form.exists_leaf_of_mem_token hmark
  refine ⟨name, ?_⟩
  rcases (Language.mem_add _ _ _).mp hvalue with hvalue | hvalue
  · rw [Language.mem_one, List.map_eq_nil_iff] at hvalue
    rw [hvalue]
    exact @FieldParts.intro name colon none hname hcolon rfl
  · obtain ⟨kind, inner, rfl⟩ := Form.exists_node_of_mem_anyNode hvalue
    exact @FieldParts.intro name colon (some (node kind inner)) hname hcolon rfl

/-- **The name of a field is its first token.** -/
theorem FieldParts.nameOf {name : Lexeme} (h : FieldParts (bareAll children) name) :
    fieldNameOf? (leafChildren children) = some name.string := by
  rw [fieldNameOf?_eq, ← leafChildren_bareAll]
  generalize bareAll children = ts at h
  obtain ⟨hname, -, -⟩ := h
  rw [leafChildren, List.find?_cons_of_pos (by simpa using hname), Option.map_some]

end Tree

/-! ## The arguments of a predicate -/

/-- The child of a predicate is one of its arguments. -/
def ChildKind.isArgument : ChildKind → Bool
  | token .captureName | token .ident | token .underscore | node .str => true
  | _ => false

/-- The argument stands in the place of a child of a predicate. -/
inductive Argument.Denotes : Tree Lexeme → Argument → Prop
  | capture {l : Lexeme} (hl : l.kind = .captureName) : Denotes (.leaf l) (.capture l.name)
  | ident {l : Lexeme} (hl : l.kind = .ident ∨ l.kind = .underscore) :
    Denotes (.leaf l) (.ident l.string)
  | str {o c : Lexeme} {value : Option Lexeme} (span : Span) (ho : o.kind = .quote)
    (hvalue : ∀ l ∈ value, l.kind = .strVal) (hc : c.kind = .quote) :
    Denotes (.node .str (.leaf o :: (value.toList.map .leaf ++ [.leaf c])))
      (.str ⟨span, value.map Lexeme.text⟩)

namespace Tree

variable {children : List (Tree Token)} {ts : List (Tree Lexeme)}

/-- The children of a predicate: an opener, a name, arguments and errors, and maybe a closer. -/
inductive PredicateParts : List (Tree Lexeme) → (name : Lexeme) → (args : List (Tree Lexeme)) → Prop
  | intro {opener name : Lexeme} {args : List (Tree Lexeme)} {closer : Option Lexeme}
    (hopener : opener.kind = .parenOpen) (hname : name.kind = .predicateName)
    (hargs : ∀ a ∈ args, a.childKind.isArgument = true ∨ a.childKind = .node .error)
    (hcloser : ∀ l ∈ closer, l.kind = .parenClose) :
    PredicateParts (leaf opener :: leaf name :: (args ++ closer.toList.map leaf)) name args

theorem isArgument_or_error (h : ts.map childKind ∈ Form.argument∗) :
    ∀ a ∈ ts, a.childKind.isArgument = true ∨ a.childKind = .node .error := by
  have hargument : EachLetter (fun c ↦ c.isArgument = true ∨ c = .node .error) Form.argument :=
    ((((Form.eachLetter_token (.inl rfl)).add (Form.eachLetter_token (.inl rfl))).add
      (Form.eachLetter_token (.inl rfl))).add (Form.eachLetter_node (.inl rfl))).add
      (Form.eachLetter_node (.inr rfl))
  exact fun a ha ↦ hargument.kstar _ h _ (List.mem_map_of_mem ha)

theorem exists_predicateParts (h : ts.map childKind ∈ Form.children .predicate) :
    ∃ name args, PredicateParts ts name args := by
  obtain ⟨_, _, rfl, hopen, hrest⟩ := Form.exists_append_of_mem_mul h
  obtain ⟨opener, rfl, hopener⟩ := Form.exists_leaf_of_mem_token hopen
  obtain ⟨_, _, rfl, hbody, hclose⟩ := Form.exists_append_of_mem_mul hrest
  obtain ⟨closer, rfl, hcloser⟩ := Form.exists_option_of_mem hclose
  obtain ⟨_, args, rfl, hmark, hargs⟩ := Form.exists_append_of_mem_mul hbody
  obtain ⟨name, rfl, hname⟩ := Form.exists_leaf_of_mem_token hmark
  exact ⟨name, args, .intro hopener hname (isArgument_or_error hargs) hcloser⟩

end Tree

namespace Argument

/-- A string with both of its quotes has the value that stands between these. -/
theorem denotes_str {children : List (Tree Token)}
    (h : (Tree.bareAll children).map Tree.childKind ∈ Form.literal) :
    Denotes (.node .str (Tree.bareAll children))
      (.str (.ofNode (.node .str children) children)) := by
  rw [StrLit.ofNode, strValOf?_eq, ← Tree.leafChildren_bareAll]
  generalize Tree.bareAll children = ts at h
  obtain ⟨_, _, rfl, hopen, hrest⟩ := Form.exists_append_of_mem_mul h
  obtain ⟨o, rfl, ho⟩ := Form.exists_leaf_of_mem_token hopen
  obtain ⟨_, _, rfl, hbody, hclose⟩ := Form.exists_append_of_mem_mul hrest
  obtain ⟨value, rfl, hvalue⟩ := Form.exists_option_of_mem hbody
  obtain ⟨c, rfl, hc⟩ := Form.exists_leaf_of_mem_token hclose
  have hfind : (Tree.leafChildren ([.leaf o] ++ (value.toList.map .leaf ++ [.leaf c]))).find?
      (·.kind = .strVal) = value := by
    cases value with
    | none => simp [Tree.leafChildren, ho, hc]
    | some l => simp [Tree.leafChildren, ho, hvalue l rfl]
  rw [hfind]
  exact .str _ ho hvalue hc

/-- A child of a predicate that is one of its arguments is read, and nothing else is. -/
theorem denotes_ofTree? (t : Tree Token) (h : ∀ b ∈ Tree.bare t, b.Quoted) :
    List.Forall₂ Denotes ((Tree.bare t).filter (·.childKind.isArgument)) (ofTree? t).toList := by
  cases t with
  | leaf t =>
    rw [Tree.bare]
    cases ht : t.kind with
    | captureName =>
      have hdenotes : Denotes (.leaf t.toLexeme) (.capture t.name) := .capture ht
      simpa [ofTree?, ht, TokenKind.isTrivia, Tree.childKind, ChildKind.isArgument] using hdenotes
    | ident | underscore =>
      have hdenotes : Denotes (.leaf t.toLexeme) (.ident t.string) := .ident (by simp [ht])
      simpa [ofTree?, ht, TokenKind.isTrivia, Tree.childKind, ChildKind.isArgument] using hdenotes
    | _ => simp [ofTree?, ht, TokenKind.isTrivia, Tree.childKind, ChildKind.isArgument]
  | node kind children =>
    have hstr := (Tree.quoted_of_bare h).1
    cases kind with
    | str => exact .cons (denotes_str (hstr rfl)) .nil
    | _ => exact .nil

theorem denotes_filterMap (ts : List (Tree Token)) (h : ∀ b ∈ Tree.bareAll ts, b.Quoted) :
    List.Forall₂ Denotes ((Tree.bareAll ts).filter (·.childKind.isArgument))
      (ts.filterMap ofTree?) := by
  induction ts with
  | nil => exact .nil
  | cons t ts ih =>
    rw [Tree.bareAll, List.forall_mem_append] at h
    have ht := denotes_ofTree? t h.1
    rw [Tree.bareAll, List.filter_append, List.filterMap_cons]
    cases hread : ofTree? t with
    | none =>
      rw [hread, Option.toList_none, List.forall₂_nil_right_iff] at ht
      rw [ht]
      exact ih h.2
    | some a =>
      rw [hread] at ht
      exact List.rel_append ht (ih h.2)

end Argument

/-- **The arguments of a predicate are its arguments**: they are read one for one and in order, and
the error nodes among them are passed over. -/
theorem Tree.PredicateParts.exists_predicate {children : List (Tree Token)} {name : Lexeme}
    {args : List (Tree Lexeme)} (h : PredicateParts (bareAll children) name args)
    (hquoted : ∀ b ∈ bareAll children, b.Quoted) :
    ∃ p, Predicate.ofTree? (.node .predicate children) = some p ∧ p.name = name.name ∧
      List.Forall₂ Argument.Denotes (args.filter (·.childKind.isArgument)) p.args := by
  have hread := Argument.denotes_filterMap children hquoted
  have hfind := predicateNameOf?_eq (leafChildren children)
  rw [← leafChildren_bareAll] at hfind
  generalize bareAll children = ts at h hread hfind
  obtain @⟨opener, name, args, closer, hopener, hname, -, hcloser⟩ := h
  have hfilter : (leaf opener :: leaf name :: (args ++ closer.toList.map leaf)).filter
      (·.childKind.isArgument) = args.filter (·.childKind.isArgument) := by
    cases closer with
    | none => simp [childKind, hopener, hname, ChildKind.isArgument]
    | some c => simp [childKind, hopener, hname, hcloser c rfl, ChildKind.isArgument]
  rw [leafChildren, leafChildren, List.find?_cons_of_neg (by simp [hopener]),
    List.find?_cons_of_pos (by simp [hname])] at hfind
  obtain ⟨t, ht, htext⟩ := Option.map_eq_some_iff.mp hfind
  rw [Predicate.ofTree?, ht]
  exact ⟨_, rfl, htext, hfilter ▸ hread⟩

/-! ## Whole texts -/

namespace Document

variable {source : String} {kind : NodeKind} {children : List (Tree Token)}

/-- Every node of a text is of its form, the root too. -/
theorem form_of_within (h : (Tree.node kind children).Within (parse source).tree) :
    (Tree.bareAll children).map Tree.childKind ∈ Form.children kind := by
  have hformed := h.of_bare (p := Tree.Formed)
    (fun kind ts hnode ↦ by cases hnode with | node _ h => exact h) (formed_parse source)
  exact (Tree.Sound.form_of_formed hformed).1

/-- Every string of a text has both of its quotes. -/
theorem quoted_of_within {t : Tree Token} (h : t.Within (parse source).tree) :
    ∀ b ∈ t.bare, b.Quoted := by
  refine h.of_bare (p := Tree.Quoted)
    (fun kind ts hnode ↦ by cases hnode with | node _ h => exact h) ?_
  rw [bareAll_parse, List.forall_mem_singleton]
  exact .node NodeKind.noConfusion (Production.root_closes source).trees

/-- **Every node of a text has the children that its accessors rely on**, whatever the text is.
The children of each node are of its exact form; the type and the subtype of a tree, the name of a
field and the arguments of a predicate are read off the places that they have in these forms; and
no string lacks its closing quote. -/
theorem parse_nodes (source : String) :
    (∀ kind children, (Tree.node kind children).Within (parse source).tree →
      (Tree.bareAll children).map Tree.childKind ∈ Form.exact kind) ∧
    (∀ children, (Tree.node .tree children).Within (parse source).tree →
      ∃ names, Tree.TypeParts (Tree.bareAll children) names ∧
        nodeTypeOf? (Tree.leafChildren children) = names[0]?.map Lexeme.string ∧
        subtypeOf? (Tree.leafChildren children) = names[2]?.map Lexeme.string) ∧
    (∀ children, (Tree.node .field children).Within (parse source).tree →
      ∃ name, Tree.FieldParts (Tree.bareAll children) name ∧
        fieldNameOf? (Tree.leafChildren children) = some name.string) ∧
    (∀ children, (Tree.node .predicate children).Within (parse source).tree →
      ∃ name args p, Tree.PredicateParts (Tree.bareAll children) name args ∧
        Predicate.ofTree? (.node .predicate children) = some p ∧ p.name = name.name ∧
        List.Forall₂ Argument.Denotes (args.filter (·.childKind.isArgument)) p.args) ∧
    ∀ r ∈ (Production.root (significant source)).reports, r.problem ≠ .expectedClosingQuote := by
  refine ⟨?_, ?_, ?_, ?_, (Production.root_closes source).reports⟩
  · intro kind children h
    by_cases hkind : kind = .str
    · subst hkind
      exact (Tree.quoted_of_bare (quoted_of_within h)).1 rfl
    · rw [Form.exact_of_ne hkind]
      exact form_of_within h
  · intro children h
    obtain ⟨names, hparts⟩ := Tree.exists_typeParts (form_of_within h)
    exact ⟨names, hparts, hparts.typeOf⟩
  · intro children h
    obtain ⟨name, hparts⟩ := Tree.exists_fieldParts (form_of_within h)
    exact ⟨name, hparts, hparts.nameOf⟩
  · intro children h
    obtain ⟨name, args, hparts⟩ := Tree.exists_predicateParts (form_of_within h)
    obtain ⟨p, hp⟩ := hparts.exists_predicate (Tree.quoted_of_bare (quoted_of_within h)).2
    exact ⟨name, args, p, hparts, hp⟩

/-- A stray colon and the quote of a string that never ends are no arguments. -/
example : (parse "(#eq? @x : \"y\" \"").tree.dump =
    "Root\n  Predicate\n    ParenOpen \"(\"\n    PredicateName \"#eq?\"\n" ++
      "    CaptureName \"@x\"\n    Error\n      Colon \":\"\n    Str\n" ++
      "      DoubleQuote \"\\\"\"\n      StrVal \"y\"\n      DoubleQuote \"\\\"\"\n" ++
      "    Error\n      Garbage \"\\\"\"\n" := by
  decide +kernel

end Document

end Concord.Query
