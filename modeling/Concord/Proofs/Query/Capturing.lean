import Concord.Proofs.Query.Cutting
import Concord.Proofs.Query.Within

/-!
# Which captures a document has

The patterns of a document list its captures by walking through the expressions that they were
read into.  What a capture is attached to can also be read off the syntax tree alone, and there it
does not matter where in the tree the capture stands.

* `Tree.Resolves t nodeType` says what nodes a tree matches by itself: a tree those of its subtype
  or type, a string and a wildcard the anonymous ones, an alternation what its branches do.
* `Tree.Captures k nodeType name` says that `k` is a capture node with that name, on something
  that resolves to the node type.
* `Tree.Sound.mem_targets_iff` and `Tree.Sound.mem_captures_iff` — the walks find what resolves,
  and all capture nodes at any depth.
* `Document.hasCapture_iff` puts these together, for every text.
-/

set_option autoImplicit false

open Computability

namespace Concord.Query

/-! ## Tokens of a node -/

namespace Tree

/-- The direct tokens of a node that mean something, without their places. -/
def ownLexemes (children : List (Tree Token)) : List Lexeme := significantOf (leafChildren children)

end Tree

namespace Form

/-- The kind of a child that is a token. -/
def token? : ChildKind → Option TokenKind
  | .token k => some k
  | .node _ => none

/-- The kinds of tokens in a word. -/
def tokens (w : List ChildKind) : List TokenKind := w.filterMap token?

@[simp] theorem tokens_append (v w : List ChildKind) : tokens (v ++ w) = tokens v ++ tokens w :=
  List.filterMap_append

/-- Words of nodes have no tokens. -/
theorem tokens_of_mem_kstar_anyNode {w : List ChildKind} (hw : w ∈ anyNode∗) : tokens w = [] := by
  have h : EachLetter (token? · = none) anyNode∗ := (eachLetter_anyNode fun _ _ ↦ rfl).kstar
  exact List.filterMap_eq_nil_iff.mpr (h w hw)

theorem tokens_of_mem_optional {k : TokenKind} {w : List ChildKind} (hw : w ∈ 1 + token k) :
    tokens w = [] ∨ tokens w = [k] := by
  rcases (Language.mem_add _ _ _).mp hw with rfl | rfl
  · exact .inl rfl
  · exact .inr rfl

/-- What a tree names: nothing, a type, or a type with a slash and maybe a subtype behind it. -/
inductive Naming : List TokenKind → Prop
  | nothing : Naming []
  | type {k : TokenKind} (hk : k = .ident ∨ k = .underscore) : Naming [k]
  | slash {k : TokenKind} (hk : k = .ident ∨ k = .underscore) : Naming [k, .slash]
  | subtype {k : TokenKind} (hk : k = .ident ∨ k = .underscore) : Naming [k, .slash, .ident]

theorem ne_slash {k : TokenKind} (hk : k = .ident ∨ k = .underscore) : k ≠ .slash := by
  rcases hk with rfl | rfl <;> exact TokenKind.noConfusion

/-- The tokens of a tree are an opener, what it names, and maybe a closer. -/
theorem exists_naming {w : List ChildKind} (hw : w ∈ children .tree) :
    ∃ ks tail, tokens w = .parenOpen :: (ks ++ tail) ∧ Naming ks ∧
      (tail = [] ∨ tail = [.parenClose]) := by
  obtain ⟨_, rfl, _, ⟨_, ⟨name, hname, inner, hinner, rfl⟩, close, hclose, rfl⟩, rfl⟩ := hw
  refine ⟨tokens name, tokens close, ?_, ?_, tokens_of_mem_optional hclose⟩
  · rw [tokens_append, tokens_append, tokens_append, tokens_of_mem_kstar_anyNode hinner,
      List.append_nil]
    rfl
  · rcases (Language.mem_add _ _ _).mp hname with rfl | ⟨t, ht, sub, hsub, rfl⟩
    · exact .nothing
    · have htype : ∃ k, tokens t = [k] ∧ (k = .ident ∨ k = .underscore) := by
        rcases (Language.mem_add _ _ _).mp ht with rfl | rfl
        · exact ⟨_, rfl, .inl rfl⟩
        · exact ⟨_, rfl, .inr rfl⟩
      obtain ⟨k, hk, hkind⟩ := htype
      rw [tokens_append, hk]
      rcases (Language.mem_add _ _ _).mp hsub with rfl | ⟨_, rfl, n, hn, rfl⟩
      · exact .type hkind
      · rw [tokens_append]
        rcases tokens_of_mem_optional hn with h | h
        · rw [h]
          exact .slash hkind
        · rw [h]
          exact .subtype hkind

/-- The tokens of a string are a quote, maybe a value, and maybe a quote. -/
theorem tokens_of_mem_str {w : List ChildKind} (hw : w ∈ children .str) :
    ∃ ks tail, tokens w = .quote :: (ks ++ tail) ∧ (ks = [] ∨ ks = [.strVal]) ∧
      (tail = [] ∨ tail = [.quote]) := by
  obtain ⟨_, rfl, _, ⟨value, hvalue, close, hclose, rfl⟩, rfl⟩ := hw
  refine ⟨tokens value, tokens close, ?_, tokens_of_mem_optional hvalue,
    tokens_of_mem_optional hclose⟩
  rw [tokens_append, tokens_append]
  rfl

end Form

namespace Tree

/-- The kinds of the direct tokens of a node are those of its word. -/
theorem map_kind_ownLexemes (children : List (Tree Token)) :
    (ownLexemes children).map Lexeme.kind = Form.tokens ((bareAll children).map childKind) := by
  rw [ownLexemes, ← leafChildren_bareAll]
  induction bareAll children with
  | nil => rfl
  | cons b bs ih =>
    cases b with
    | leaf l => rw [leafChildren, List.map_cons, ih]; rfl
    | node kind children => rw [leafChildren, ih]; rfl

/-! ## What a tree resolves to -/

/-- The name of the nodes that a tree matches, given its tokens: the subtype that stands behind a
slash, or else the type, which stands behind the opener. -/
def treeName? : List Lexeme → Option Lexeme
  | [] | [_] => none
  | _ :: type :: rest =>
    match rest with
    | slash :: sub :: _ =>
      if slash.kind = .slash ∧ sub.kind = .ident then some sub else typeName? type
    | _ => typeName? type
where
  /-- The lexeme, if it can be a type. -/
  typeName? (type : Lexeme) : Option Lexeme :=
    if type.kind = .ident ∨ type.kind = .underscore then some type else none

/-- The characters between the quotes of a string, given its tokens. -/
def strBody : List Lexeme → List Char
  | _ :: value :: _ => if value.kind = .strVal then value.text else []
  | _ => []

/-- The nodes that a tree matches by itself are of the type. -/
inductive Resolves : Tree Token → (nodeType : String) → Prop
  | tree {children : List (Tree Token)} {name : Lexeme}
    (h : treeName? (ownLexemes children) = some name) : Resolves (node .tree children) name.string
  | str (children : List (Tree Token)) :
    Resolves (node .str children) (String.ofList (unescape (strBody (ownLexemes children))))
  | wildcard (children : List (Tree Token)) : Resolves (node .wildcard children) "_"
  | branch {children : List (Tree Token)} {c : Tree Token} {nodeType : String} (hc : c ∈ children)
    (h : Resolves c nodeType) : Resolves (node .alternation children) nodeType
  | inner {kind : NodeKind} {children : List (Tree Token)} {c : Tree Token} {nodeType : String}
    (hkind : kind = .field ∨ kind = .quantifier ∨ kind = .capture) (hc : c ∈ children)
    (h : Resolves c nodeType) : Resolves (node kind children) nodeType

/-- The name of a tree is the one that is read off its tokens. -/
theorem Sound.matchedType_eq {children : List (Tree Token)} (h : (node .tree children).Sound) :
    matchedType (nodeTypeOf? (leafChildren children)) (subtypeOf? (leafChildren children)) =
      (treeName? (ownLexemes children)).map Lexeme.string := by
  obtain ⟨ks, tail, hkinds, hnaming, htail⟩ := Form.exists_naming h.form
  rw [← map_kind_ownLexemes] at hkinds
  obtain ⟨opener, ls, hls, hopener, hkinds⟩ := List.map_eq_cons_iff.mp hkinds
  obtain ⟨names, closer, rfl, hnames, hcloser⟩ := List.map_eq_append_iff.mp hkinds
  have hcloser : closer = [] ∨ ∃ c, closer = [c] ∧ c.kind = .parenClose :=
    htail.imp (fun h ↦ List.map_eq_nil_iff.mp (hcloser.trans h))
      (fun h ↦ List.map_eq_singleton_iff.mp (hcloser.trans h))
  rw [nodeTypeOf?_eq, subtypeOf?_eq, matchedType, ← ownLexemes, hls]
  cases hnaming with
  | nothing =>
    obtain rfl := List.map_eq_nil_iff.mp hnames
    rcases hcloser with rfl | ⟨c, rfl, hc⟩ <;> simp [treeName?, treeName?.typeName?, *]
  | type hk =>
    have hne := Form.ne_slash hk
    obtain ⟨type, rfl, rfl⟩ := List.map_eq_singleton_iff.mp hnames
    rcases hcloser with rfl | ⟨c, rfl, hc⟩ <;>
      simp [treeName?, treeName?.typeName?, *]
  | slash hk =>
    have hne := Form.ne_slash hk
    simp only [List.map_eq_cons_iff, List.map_eq_nil_iff] at hnames
    obtain ⟨type, _, rfl, rfl, slash, _, rfl, hslash, rfl⟩ := hnames
    rcases hcloser with rfl | ⟨c, rfl, hc⟩ <;>
      simp [treeName?, treeName?.typeName?, *]
  | subtype hk =>
    have hne := Form.ne_slash hk
    simp only [List.map_eq_cons_iff, List.map_eq_nil_iff] at hnames
    obtain ⟨type, _, rfl, rfl, slash, _, rfl, hslash, sub, _, rfl, hsub, rfl⟩ := hnames
    simp [treeName?, hopener, hne, hslash, hsub]

/-- The value of a string is the one that is read off its tokens. -/
theorem Sound.value_eq {children : List (Tree Token)} (h : (node .str children).Sound) :
    (StrLit.ofNode (node .str children) children).value =
      String.ofList (unescape (strBody (ownLexemes children))) := by
  obtain ⟨ks, tail, hkinds, hks, htail⟩ := Form.tokens_of_mem_str h.form
  rw [← map_kind_ownLexemes] at hkinds
  obtain ⟨quote, ls, hls, hquote, hkinds⟩ := List.map_eq_cons_iff.mp hkinds
  obtain ⟨values, closer, rfl, rfl, rfl⟩ := List.map_eq_append_iff.mp hkinds
  rw [StrLit.value, StrLit.ofNode, strValOf?_eq, ← ownLexemes, hls]
  rcases hks with hvalues | hvalues
  · obtain rfl := List.map_eq_nil_iff.mp hvalues
    rcases htail with hcloser | hcloser
    · obtain rfl := List.map_eq_nil_iff.mp hcloser
      simp [strBody, hquote]
    · obtain ⟨c, rfl, hc⟩ := List.map_eq_singleton_iff.mp hcloser
      simp [strBody, hquote, hc]
  · obtain ⟨value, rfl, hvalue⟩ := List.map_eq_singleton_iff.mp hvalues
    simp [strBody, hquote, hvalue]

section Resolves

variable {children : List (Tree Token)} {nodeType : String}

theorem not_resolves_leaf {t : Token} : ¬ (leaf t).Resolves nodeType := by
  rintro ⟨⟩

theorem resolves_tree_iff : (node .tree children).Resolves nodeType ↔
    (treeName? (ownLexemes children)).map Lexeme.string = some nodeType := by
  rw [Option.map_eq_some_iff]
  constructor
  · rintro (h | _ | _ | _ | ⟨hkind, -⟩)
    · exact ⟨_, h, rfl⟩
    · simp at hkind
  · rintro ⟨name, h, rfl⟩
    exact .tree h

theorem resolves_str_iff : (node .str children).Resolves nodeType ↔
    nodeType = String.ofList (unescape (strBody (ownLexemes children))) := by
  constructor
  · rintro (_ | _ | _ | _ | ⟨hkind, -⟩)
    · rfl
    · simp at hkind
  · rintro rfl
    exact .str children

theorem resolves_wildcard_iff : (node .wildcard children).Resolves nodeType ↔ nodeType = "_" := by
  constructor
  · rintro (_ | _ | _ | _ | ⟨hkind, -⟩)
    · rfl
    · simp at hkind
  · rintro rfl
    exact .wildcard children

theorem resolves_alternation_iff : (node .alternation children).Resolves nodeType ↔
    ∃ c ∈ children, c.Resolves nodeType := by
  constructor
  · rintro (_ | _ | _ | ⟨hc, h⟩ | ⟨hkind, -⟩)
    · exact ⟨_, hc, h⟩
    · simp at hkind
  · rintro ⟨c, hc, h⟩
    exact .branch hc h

theorem resolves_inner_iff {kind : NodeKind}
    (hkind : kind = .field ∨ kind = .quantifier ∨ kind = .capture) :
    (node kind children).Resolves nodeType ↔ ∃ c ∈ children, c.Resolves nodeType := by
  constructor
  · rintro (_ | _ | _ | ⟨hc, h⟩ | ⟨-, hc, h⟩)
    · simp at hkind
    · simp at hkind
    · simp at hkind
    · exact ⟨_, hc, h⟩
    · exact ⟨_, hc, h⟩
  · rintro ⟨c, hc, h⟩
    exact .inner hkind hc h

/-- The other nodes match nothing by themselves. -/
theorem not_resolves {kind : NodeKind} (hkind : kind ∈ [.root, .group, .anchor, .negatedField,
    .predicate, .error]) : ¬ (node kind children).Resolves nodeType := by
  rintro (_ | _ | _ | _ | ⟨hkind', -⟩)
  all_goals simp_all
  rcases hkind' with rfl | rfl | rfl <;> simp at hkind

end Resolves

/-- The node types that captures on a tree attach to. -/
def targetTypes : Tree Token → List String := listing fun e ↦ e.targets.map Prod.fst

theorem targetsAll_eq_flatMap (es : List Expr) : Expr.targetsAll es = es.flatMap Expr.targets := by
  induction es with
  | nil => rfl
  | cons e es ih => rw [Expr.targetsAll, ih, List.flatMap_cons]

theorem map_fst_targetsAll (children : List (Tree Token)) :
    (Expr.targetsAll (Expr.ofTrees children)).map Prod.fst = children.flatMap targetTypes := by
  rw [targetsAll_eq_flatMap, List.map_flatMap]
  exact flatMap_ofTrees _ children

/-- A capture on a field, a quantifier or a capture attaches to what is inside of it. -/
theorem Sound.targetTypes_of_head {kind : NodeKind} {children : List (Tree Token)}
    (h : (node kind children).Sound)
    (hkind : kind = .field ∨ kind = .quantifier ∨ kind = .capture) :
    (node kind children).targetTypes = children.flatMap targetTypes := by
  have hhead : (node kind children).targetTypes =
      ((Expr.ofTrees children).head?.map fun e ↦ e.targets.map Prod.fst).getD [] := by
    obtain rfl | rfl | rfl := hkind
    all_goals
      rw [targetTypes, listing, Expr.ofTree?]
      cases (Expr.ofTrees children).head? <;> simp [Expr.targets]
  rw [hhead]
  exact h.listing_head _ hkind

/-- **Captures attach to what resolves.** -/
theorem Sound.mem_targetTypes_iff {t : Tree Token} (h : t.Sound) (nodeType : String) :
    nodeType ∈ t.targetTypes ↔ t.Resolves nodeType := by
  refine Sound.induct (motive := fun t ↦ nodeType ∈ t.targetTypes ↔ t.Resolves nodeType) ?_ ?_ t h
  · intro t
    simpa [targetTypes, listing, Expr.ofTree?] using not_resolves_leaf
  · intro kind children h ih
    have hchildren : nodeType ∈ children.flatMap targetTypes ↔
        ∃ c ∈ children, c.Resolves nodeType := by
      rw [List.mem_flatMap]
      exact exists_congr fun c ↦ and_congr_right fun hc ↦ ih c hc
    have hinner (hkind : kind = .field ∨ kind = .quantifier ∨ kind = .capture) :
        nodeType ∈ (node kind children).targetTypes ↔ (node kind children).Resolves nodeType := by
      rw [h.targetTypes_of_head hkind, hchildren, resolves_inner_iff hkind]
    cases kind with
    | tree =>
      rw [resolves_tree_iff, ← h.matchedType_eq]
      simp [targetTypes, listing, Expr.ofTree?, Expr.targets]
    | str =>
      rw [resolves_str_iff, ← h.value_eq]
      simp [targetTypes, listing, Expr.ofTree?, Expr.targets]
    | wildcard =>
      rw [resolves_wildcard_iff]
      simp [targetTypes, listing, Expr.ofTree?, Expr.targets]
    | alternation =>
      rw [resolves_alternation_iff, ← hchildren, ← map_fst_targetsAll]
      simp [targetTypes, listing, Expr.ofTree?, Expr.targets]
    | field => exact hinner (.inl rfl)
    | quantifier => exact hinner (.inr (.inl rfl))
    | capture => exact hinner (.inr (.inr rfl))
    | _ => simpa [targetTypes, listing, Expr.ofTree?, Expr.targets] using not_resolves (by decide)

/-! ## Capture nodes -/

/-- The pairs of a capture node. -/
def capturePairs (children : List (Tree Token)) : List CapturePair :=
  Expr.pairs (span (node .capture children)) (captureNamesOf (leafChildren children))
    (Expr.ofTrees children).head?

theorem mem_pairs_iff {p : CapturePair} {span : Span} {names : List String} {inner : Option Expr} :
    p ∈ Expr.pairs span names inner ↔ p.span = span ∧ p.capture ∈ names ∧
      (p.nodeType, p.named) ∈ (inner.map Expr.targets).getD [] := by
  obtain ⟨nodeType, named, capture, place⟩ := p
  simp only [Expr.pairs, List.mem_flatMap, List.mem_map, CapturePair.mk.injEq, Prod.exists]
  constructor
  · rintro ⟨name, hname, nodeType, named, htarget, rfl, rfl, rfl, rfl⟩
    exact ⟨rfl, hname, htarget⟩
  · rintro ⟨rfl, hname, htarget⟩
    exact ⟨capture, hname, nodeType, named, htarget, rfl, rfl, rfl, rfl⟩

theorem capturesAll_eq_flatMap (es : List Expr) :
    Expr.capturesAll es = es.flatMap Expr.captures := by
  induction es with
  | nil => rfl
  | cons e es ih => rw [Expr.capturesAll, ih, List.flatMap_cons]

theorem listing_captures_of_isFlat {kind : NodeKind} (hkind : Form.IsFlat kind)
    (children : List (Tree Token)) : (node kind children).listing Expr.captures = [] := by
  obtain rfl | rfl | rfl | rfl | rfl := hkind <;>
    simp [listing, Expr.ofTree?, Expr.captures]

/-- **The captures of a node** are its own, if it is a capture, and those of its children. -/
theorem Sound.listing_captures {kind : NodeKind} {children : List (Tree Token)}
    (h : (node kind children).Sound) :
    (node kind children).listing Expr.captures =
      (if kind = .capture then capturePairs children else []) ++
        children.flatMap (listing Expr.captures) := by
  have hall := flatMap_ofTrees Expr.captures children
  rw [← capturesAll_eq_flatMap] at hall
  have hflat (hkind : Form.IsFlat kind) : (node kind children).listing Expr.captures =
      children.flatMap (listing Expr.captures) := by
    rw [listing_captures_of_isFlat hkind, eq_comm, List.flatMap_eq_nil_iff]
    intro c hc
    obtain ⟨t, rfl⟩ := h.exists_leaf_of_isFlat hkind c hc
    rfl
  have hhead (hkind : kind = .field ∨ kind = .quantifier ∨ kind = .capture) :=
    h.listing_head Expr.captures hkind
  cases kind with
  | tree => simpa [listing, Expr.ofTree?, Expr.captures] using hall
  | group => simpa [listing, Expr.ofTree?, Expr.captures] using hall
  | alternation => simpa [listing, Expr.ofTree?, Expr.captures] using hall
  | field =>
    rw [← hhead (.inl rfl), listing, Expr.ofTree?]
    cases (Expr.ofTrees children).head? <;> simp [Expr.captures]
  | quantifier =>
    rw [← hhead (.inr (.inl rfl)), listing, Expr.ofTree?]
    cases (Expr.ofTrees children).head? <;> simp [Expr.captures]
  | capture =>
    rw [← hhead (.inr (.inr rfl)), listing, Expr.ofTree?, capturePairs]
    cases (Expr.ofTrees children).head? <;> simp [Expr.captures]
  | predicate =>
    rw [if_neg NodeKind.noConfusion, List.nil_append, eq_comm]
    refine List.flatMap_eq_nil_iff.mpr fun c hc ↦ ?_
    cases c with
    | leaf t => rfl
    | node kind inner => exact listing_captures_of_isFlat (h.isFlat_of_predicate hc) inner
  | root => exact absurd rfl h.kind_ne
  | _ => exact hflat (by simp [Form.IsFlat])

/-- **All capture nodes are found**, at whatever depth they stand, and nothing else is. -/
theorem Sound.mem_captures_iff {t : Tree Token} (h : t.Sound) (p : CapturePair) :
    p ∈ t.listing Expr.captures ↔
      ∃ children, (node .capture children).Within t ∧ p ∈ capturePairs children := by
  refine Sound.induct (motive := fun t ↦ p ∈ t.listing Expr.captures ↔
    ∃ children, (node .capture children).Within t ∧ p ∈ capturePairs children) ?_ ?_ t h
  · intro t
    simp [listing, Expr.ofTree?, within_leaf_iff]
  · intro kind children h ih
    rw [h.listing_captures, List.mem_append, List.mem_flatMap]
    constructor
    · rintro (hp | ⟨c, hc, hp⟩)
      · split at hp
        · rename_i hkind
          obtain rfl := hkind
          exact ⟨children, .refl, hp⟩
        · contradiction
      · obtain ⟨inner, hinner, hp⟩ := (ih c hc).mp hp
        exact ⟨inner, .child hc hinner, hp⟩
    · rintro ⟨inner, hinner, hp⟩
      rcases within_node_iff.mp hinner with heq | ⟨c, hc, hinner⟩
      · obtain ⟨rfl, rfl⟩ := node.inj heq
        exact .inl (by rwa [if_pos rfl])
      · exact .inr ⟨c, hc, (ih c hc).mpr ⟨inner, hinner, hp⟩⟩

/-- The pairs of a capture node are made of its names and of what it is on. -/
theorem Sound.mem_capturePairs {children : List (Tree Token)} (h : (node .capture children).Sound)
    (nodeType name : String) :
    (∃ p ∈ capturePairs children, p.nodeType = nodeType ∧ p.capture = name) ↔
      name ∈ captureNamesOf (leafChildren children) ∧
        ∃ c ∈ children, c.Resolves nodeType := by
  have htargets : (∃ named, (nodeType, named) ∈
      ((Expr.ofTrees children).head?.map Expr.targets).getD []) ↔
        ∃ c ∈ children, c.Resolves nodeType := by
    rw [← resolves_inner_iff (.inr (.inr rfl)), ← h.mem_targetTypes_iff, targetTypes, listing,
      Expr.ofTree?]
    cases (Expr.ofTrees children).head? <;> simp [Expr.targets]
  rw [← htargets]
  constructor
  · rintro ⟨⟨nodeType, named, name, place⟩, hp, rfl, rfl⟩
    obtain ⟨-, hname, htarget⟩ := mem_pairs_iff.mp hp
    exact ⟨hname, named, htarget⟩
  · rintro ⟨hname, named, htarget⟩
    exact ⟨⟨nodeType, named, name, _⟩, mem_pairs_iff.mpr ⟨rfl, hname, htarget⟩, rfl, rfl⟩

/-- The tree is a capture node with a name, on something that resolves to the node type. -/
inductive Captures : Tree Token → (nodeType name : String) → Prop
  | intro {children : List (Tree Token)} {mark : Token} {inner : Tree Token}
    {nodeType name : String} (hmark : leaf mark ∈ children) (hkind : mark.kind = .captureName)
    (htext : mark.text = '@' :: name.toList) (hinner : inner ∈ children)
    (h : inner.Resolves nodeType) : Captures (node .capture children) nodeType name

end Tree

/-! ## The marker of a capture -/

theorem text_of_step {c : Char} {cs text : List Char}
    (h : (step c cs).1 = .lexeme .captureName text) : ∃ name, text = '@' :: name := by
  cases stepForm c with
  | single kind hstep habsorbs =>
    -- a single character absorbs nothing, and a capture name absorbs letters
    rw [hstep] at h
    obtain ⟨rfl, -⟩ := Piece.lexeme.inj h
    have hletter : isIdentPart 'a' = false := habsorbs 'a'
    contradiction
  | comment hstep => simp [hstep, takeRun] at h
  | blank hstep => simp [hstep, takeRun] at h
  | literal hstep =>
    rw [hstep, takeLiteral] at h
    split at h <;> contradiction
  | captureName hstep =>
    rw [hstep] at h
    cases cs with
    | nil => contradiction
    | cons d ds =>
      rw [takeCaptureName] at h
      split at h
      · exact ⟨_, (Piece.lexeme.inj h).2.symm⟩
      · contradiction
  | predicateName hstep =>
    rw [hstep] at h
    cases cs with
    | nil => contradiction
    | cons d ds =>
      rw [takePredicateName] at h
      split at h
      · exact absurd (Piece.lexeme.inj h).1 TokenKind.noConfusion
      · contradiction
  | ident hstep =>
    rw [hstep, takeIdent] at h
    obtain ⟨hkind, -⟩ := Piece.lexeme.inj h
    split at hkind <;> contradiction
  | unmatched hstep =>
    rw [hstep] at h
    contradiction

theorem text_of_mem_pieces {cs text : List Char}
    (h : Piece.lexeme .captureName text ∈ pieces cs) : ∃ name, text = '@' :: name := by
  fun_induction pieces cs with
  | case1 => contradiction
  | case2 c cs ih =>
    rcases List.mem_cons.mp h with h | h
    · exact text_of_step h.symm
    · exact ih h

theorem mem_of_mem_joinUnmatched {ps : List Piece} {kind : TokenKind} {text : List Char}
    (h : Piece.lexeme kind text ∈ joinUnmatched ps) : Piece.lexeme kind text ∈ ps := by
  fun_induction joinUnmatched ps with
  | case1 => contradiction
  | case2 a ps b qs heq ih => simp_all
  | case3 a ps _ ih => simp_all
  | case4 p ps _ ih => simp_all; tauto

/-- A capture name begins with its marker. -/
theorem text_of_kind_captureName {source : String} {t : Token} (ht : t ∈ tokenize source)
    (hkind : t.kind = .captureName) : ∃ name, t.text = '@' :: name := by
  have hmem : t.toLexeme ∈ scan source.toList := by
    rw [← Token.map_toLexeme_placeAll 0 (scan source.toList)]
    exact List.mem_map_of_mem ht
  obtain ⟨p, hp, hl⟩ := List.mem_flatMap.mp hmem
  cases p with
  | lexeme kind text =>
    rw [Piece.lexemes, List.mem_singleton] at hl
    have heq : kind = .captureName ∧ t.text = text := by
      rw [← hkind]
      exact ⟨(congrArg Lexeme.kind hl).symm, congrArg Lexeme.text hl⟩
    obtain ⟨rfl, htext⟩ := heq
    rw [htext]
    exact text_of_mem_pieces (mem_of_mem_joinUnmatched hp)
  | literal body =>
    have hne : ∀ l ∈ (Piece.literal body).lexemes, l.kind ≠ .captureName := by
      cases body <;> simp [Piece.lexemes]
    exact absurd hkind (hne _ hl)
  | unmatched text =>
    rw [Piece.lexemes, List.mem_singleton] at hl
    have hgarbage : t.kind = .garbage := congrArg Lexeme.kind hl
    rw [hkind] at hgarbage
    contradiction

/-- The name of a capture is what stands behind its marker. -/
theorem mem_captureNamesOf_iff {source : String} {ts : List Token}
    (h : ∀ t ∈ ts, t ∈ tokenize source) (name : String) :
    name ∈ captureNamesOf ts ↔
      ∃ t ∈ ts, t.kind = .captureName ∧ t.text = '@' :: name.toList := by
  rw [captureNamesOf, List.mem_map]
  constructor
  · rintro ⟨t, ht, rfl⟩
    obtain ⟨ht, hkind⟩ := List.mem_filter.mp ht
    have hkind : t.kind = .captureName := of_decide_eq_true hkind
    obtain ⟨name, hname⟩ := text_of_kind_captureName (h t ht) hkind
    exact ⟨t, ht, hkind, by rw [Token.name, hname, List.tail_cons, String.toList_ofList]⟩
  · rintro ⟨t, ht, hkind, htext⟩
    refine ⟨t, List.mem_filter.mpr ⟨ht, decide_eq_true hkind⟩, ?_⟩
    rw [Token.name, htext, List.tail_cons, String.ofList_toList]

namespace Document

/-! ## Captures of a document -/

variable {source : String}

theorem captures_parse (source : String) :
    (parse source).captures =
      (parse source).tree.children.flatMap (Tree.listing Expr.captures) := by
  rw [← Tree.flatMap_ofTrees]
  show ((parse source).exprs.map Pattern.ofExpr).flatMap Pattern.captures = _
  rw [List.flatMap_map]
  rfl

theorem mem_captures_iff (source : String) (p : CapturePair) :
    p ∈ (parse source).captures ↔
      ∃ children, (Tree.node .capture children).Within (parse source).tree ∧
        p ∈ Tree.capturePairs children := by
  rw [captures_parse, List.mem_flatMap]
  constructor
  · rintro ⟨t, ht, hp⟩
    obtain ⟨children, hwithin, hp⟩ := ((sound_of_mem_children ht).mem_captures_iff p).mp hp
    exact ⟨children, .child ht hwithin, hp⟩
  · rintro ⟨children, hwithin, hp⟩
    obtain ⟨t, ht, hwithin⟩ := exists_of_within NodeKind.noConfusion hwithin
    exact ⟨t, ht, ((sound_of_mem_children ht).mem_captures_iff p).mpr ⟨children, hwithin, hp⟩⟩

/-- The tokens of a node are tokens of the text. -/
theorem mem_tokenize_of_within {kind : NodeKind} {children : List (Tree Token)}
    (h : (Tree.node kind children).Within (parse source).tree) :
    ∀ t ∈ Tree.leafChildren children, t ∈ tokenize source := by
  intro t ht
  have hleaves : (parse source).tree.leaves = tokenize source := Tree.leaves_weaveRoot _ _
  rw [← hleaves]
  refine h.mem_leaves ?_
  rw [Tree.leaves]
  exact (Tree.leafChildren_sublist children).subset ht

/-- The node of a pair captures with the name of the pair, and what it captures resolves to the
node type of the pair. -/
theorem captures_of_mem_capturePairs {children : List (Tree Token)}
    (hwithin : (Tree.node .capture children).Within (parse source).tree) {p : CapturePair}
    (hp : p ∈ Tree.capturePairs children) :
    (Tree.node .capture children).Captures p.nodeType p.capture := by
  have hsound := sound_of_within NodeKind.noConfusion hwithin
  obtain ⟨hmem, inner, hinner, hresolves⟩ :=
    (hsound.mem_capturePairs p.nodeType p.capture).mp ⟨p, hp, rfl, rfl⟩
  obtain ⟨mark, hmark, hkind, htext⟩ :=
    (mem_captureNamesOf_iff (mem_tokenize_of_within hwithin) p.capture).mp hmem
  exact .intro (Tree.mem_leafChildren.mp hmark) hkind htext hinner hresolves

/-- **A document has a capture exactly if its syntax tree does.**  Whatever the text is, a node
type has a capture if and only if there is, at any depth of the tree, a capture node with that
name on something that resolves to the node type. -/
theorem hasCapture_iff (source nodeType name : String) :
    (parse source).hasCapture nodeType name = true ↔
      ∃ k : Tree Token, k.Within (parse source).tree ∧ k.Captures nodeType name := by
  have hpair : (parse source).hasCapture nodeType name = true ↔
      ∃ p ∈ (parse source).captures, p.nodeType = nodeType ∧ p.capture = name := by
    simp [hasCapture, capturesOf]
  rw [hpair]
  constructor
  · rintro ⟨p, hp, rfl, rfl⟩
    obtain ⟨children, hwithin, hp⟩ := (mem_captures_iff source p).mp hp
    exact ⟨_, hwithin, captures_of_mem_capturePairs hwithin hp⟩
  · rintro ⟨k, hwithin, hcaptures⟩
    obtain ⟨hmark, hkind, htext, hinner, hresolves⟩ := hcaptures
    have hsound := sound_of_within NodeKind.noConfusion hwithin
    have hmem := (mem_captureNamesOf_iff (mem_tokenize_of_within hwithin) name).mpr
      ⟨_, Tree.mem_leafChildren.mpr hmark, hkind, htext⟩
    obtain ⟨p, hp, hnodeType, hname⟩ :=
      (hsound.mem_capturePairs nodeType name).mpr ⟨hmem, _, hinner, hresolves⟩
    exact ⟨p, (mem_captures_iff source p).mpr ⟨_, hwithin, hp⟩, hnodeType, hname⟩

end Document

end Concord.Query
