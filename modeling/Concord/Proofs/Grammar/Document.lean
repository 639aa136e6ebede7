import Concord.Proofs.Grammar.Abstract
import Concord.Proofs.Grammar.Names

/-!
# What a grammar document is read as

* `GrammarDocument.lists_grammar` — the grammar of any document: its name, the names of its rules,
  and the names that its values refer to.
* `RuleBody.symbols_sorted` — the symbols of a body are found in its value, though the members of
  objects are sorted there.
* `AbstractGrammar.ofJson_of_writes` — a grammar that is written as a document is read, with its
  own names and symbols, if lists and objects do not lie in too many others.
* `AbstractGrammar.ofJson_of_depth_lt` — it is turned down if they do.
-/

set_option autoImplicit false

namespace Concord

open Json (Fault Finish Key Node Value)
open Json.Node (orderedMembers?)

namespace GrammarDocument

/-! ## The grammar of a document -/

/-- **The grammar of a document** has its name, declares the names of its rules and refers to the
names that occur in its values. -/
theorem lists_grammar (d : GrammarDocument) :
    d.grammar.Lists d.name (d.rules.map Prod.fst)
      (symbolsOfItems (d.rules.map Prod.snd ++ d.extras ++ d.externals)) := by
  have hempty : ({ name := d.name } : Grammar).Lists d.name [] [] := ⟨rfl, rfl, rfl⟩
  have hdeclared := hempty.foldl_declare (d.rules.map fun r ↦ ⟨r.1, none⟩)
  rw [List.foldl_map, List.map_map] at hdeclared
  exact hdeclared.foldl_refer _

/-! ## Reading a document -/

/-- A body of a new name comes last. -/
theorem putBody_of_notMem {name : String} {rules : List (String × Value)}
    (h : name ∉ rules.map Prod.fst) (body : Value) :
    putBody name body rules = rules ++ [(name, body)] := by
  induction rules with
  | nil => rfl
  | cons r rs ih =>
    rw [List.map_cons, List.mem_cons, not_or] at h
    rw [putBody, if_neg (Ne.symm h.1), ih h.2]
    rfl

/-- Puts bodies in their places, one after the other. -/
def putBodies (before es : List (String × Value)) : List (String × Value) :=
  es.foldl (fun rs e ↦ putBody e.1 e.2.sorted rs) before

/-- Bodies of different names come one after the other. -/
theorem putBodies_of_nodup {before es : List (String × Value)}
    (h : (before.map Prod.fst ++ es.map Prod.fst).Nodup) :
    putBodies before es = before ++ es.map fun e ↦ (e.1, e.2.sorted) := by
  induction es generalizing before with
  | nil => simp [putBodies]
  | cons e es ih =>
    have hfirst : e.1 ∉ before.map Prod.fst := by
      intro hmem
      exact (List.nodup_append.mp h).2.2 e.1 hmem e.1 List.mem_cons_self rfl
    have hrest := @ih (before ++ [(e.1, e.2.sorted)]) (by simpa using h)
    rw [putBodies, List.foldl_cons, putBody_of_notMem hfirst, ← putBodies, hrest]
    simp

section Bodies

variable {room : Nat} {ms : List (Key × Node)} {es : List (String × Value)}

theorem bodies_of_ordered (before : List (String × Value)) (h : orderedMembers? ms = some es)
    (hdepth : Value.membersDepth es ≤ room) :
    bodies room before ms = .ok (putBodies before es) := by
  induction ms generalizing before es with
  | nil =>
    cases h
    rfl
  | cons m ms ih =>
    obtain ⟨key, n⟩ := m
    obtain ⟨k, w, es', hk, hw, hes, rfl⟩ := Node.exists_of_orderedMembers_cons h
    rw [Value.membersDepth, Nat.max_le] at hdepth
    rw [bodies, hk, Node.value_of_ordered hw hdepth.1]
    exact ih (putBody k w.sorted before) hes hdepth.2

theorem bodies_of_depth_lt (before : List (String × Value)) (h : orderedMembers? ms = some es)
    (hdepth : room < Value.membersDepth es) :
    ∃ stop, bodies room before ms = .error ⟨.tooDeep, stop⟩ := by
  induction ms generalizing before es with
  | nil =>
    cases h
    simp [Value.membersDepth] at hdepth
  | cons m ms ih =>
    obtain ⟨key, n⟩ := m
    obtain ⟨k, w, es', hk, hw, hes, rfl⟩ := Node.exists_of_orderedMembers_cons h
    by_cases hfirst : room < w.depth
    · obtain ⟨stop, hstop⟩ := Node.value_of_depth_lt hw hfirst
      exact ⟨stop, by rw [bodies, hk, hstop]; rfl⟩
    · rw [Value.membersDepth] at hdepth
      obtain ⟨stop, hstop⟩ := ih (putBody k w.sorted before) hes (by omega)
      exact ⟨stop, by rw [bodies, hk, Node.value_of_ordered hw (by omega), ← hstop]; rfl⟩

end Bodies

section Rules

variable {room : Nat} {n : Node} {es : List (String × Value)}

theorem rulesOfNode_of_ordered (h : n.ordered? = some (.object es))
    (hdepth : Value.membersDepth es ≤ room) :
    rulesOfNode (room + 1) n = .ok (putBodies [] es) := by
  obtain ⟨start, ms, stop, rfl, hms⟩ := Node.eq_object_of_ordered h
  rw [rulesOfNode, Json.goInto_succ]
  simp [bind, Except.bind, bodies_of_ordered [] hms hdepth, Finish.check, pure, Except.pure]

theorem rulesOfNode_of_depth_lt (h : n.ordered? = some (.object es))
    (hdepth : room < Value.membersDepth es) :
    ∃ stop, rulesOfNode (room + 1) n = .error ⟨.tooDeep, stop⟩ := by
  obtain ⟨start, ms, stop, rfl, hms⟩ := Node.eq_object_of_ordered h
  obtain ⟨stop', hstop⟩ := bodies_of_depth_lt [] hms hdepth
  exact ⟨stop', by rw [rulesOfNode, Json.goInto_succ]; simp [bind, Except.bind, hstop]⟩

end Rules

section SetMembers

variable {room : Nat} {seen : List Field} {key : Key} {name : String} {field : Field}

theorem setMembers_skip {d : GrammarDocument} {n : Node} {ms : List (Key × Node)}
    (hkey : key.text = .ok name) (hfield : Field.ofName? name = none) (hskip : n.skip = .ok ()) :
    setMembers room seen d ((key, n) :: ms) = setMembers room seen d ms := by
  rw [setMembers, hkey]
  simp only [bind, Except.bind, hfield, hskip]

theorem setMembers_repeated {d : GrammarDocument} {n : Node} {ms : List (Key × Node)}
    (hkey : key.text = .ok name) (hfield : Field.ofName? name = some field)
    (hseen : field ∈ seen) :
    setMembers room seen d ((key, n) :: ms) = .error ⟨.repeated name, key.refusal⟩ := by
  rw [setMembers, hkey]
  simp only [bind, Except.bind, hfield, if_pos hseen]

/-- A field that was not read before is set. -/
theorem setMembers_cons (hkey : key.text = .ok name) (hfield : Field.ofName? name = some field)
    (hseen : field ∉ seen) (d : GrammarDocument) (n : Node) (ms : List (Key × Node)) :
    setMembers room seen d ((key, n) :: ms) =
      (setField room d n field).bind fun d ↦ setMembers room (field :: seen) d ms := by
  rw [setMembers, hkey]
  simp only [bind, Except.bind, hfield, if_neg hseen]

end SetMembers

end GrammarDocument

/-! ## The symbols of a body -/

namespace GrammarDocument

/-- Wherever a member is put among others without symbols, its own are found. -/
theorem symbolsOfMembers_putMember {ms : List (String × Value)} (h : symbolsOfMembers ms = [])
    (key : String) (v : Value) : symbolsOfMembers (Value.putMember key v ms) = symbols v := by
  induction ms with
  | nil => simp [Value.putMember, symbolsOfMembers]
  | cons m ms ih =>
    obtain ⟨k, w⟩ := m
    rw [symbolsOfMembers, List.append_eq_nil_iff] at h
    rw [Value.putMember]
    split
    · rw [symbolsOfMembers, h.1, ih h.2, List.nil_append]
    · split
      · rw [symbolsOfMembers, h.2, List.append_nil]
      · rw [symbolsOfMembers, symbolsOfMembers, h.1, h.2, List.append_nil, List.append_nil]

theorem ownSymbol_of_type_ne {type : String} (htype : type ≠ "SYMBOL")
    {ms : List (String × Value)} (h : ms.lookup "type" = some (.string type)) :
    ownSymbol ms = [] := by
  unfold ownSymbol
  rw [h]
  split
  · rename_i heq _
    cases heq
    contradiction
  · rfl

end GrammarDocument

namespace RuleBody

open GrammarDocument (ownSymbol_of_type_ne symbolsOfMembers_putMember)

variable {type key : String}

/-- An object that is no symbol has the symbols of its one value. -/
theorem symbols_tagged (htype : type ≠ "SYMBOL") (hkey : "type" ≠ key) (v : Value) :
    GrammarDocument.symbols (tagged type [(key, v)]).sorted =
      GrammarDocument.symbols v.sorted := by
  show GrammarDocument.symbols (.object (Value.putMember key v.sorted [("type", .string type)])) = _
  rw [GrammarDocument.symbols, symbolsOfMembers_putMember rfl, ownSymbol_of_type_ne htype,
    List.nil_append]
  rw [Value.lookup_putMember, if_neg hkey]
  rfl

/-- A member without symbols may stand in front of that value. -/
theorem symbols_tagged_cons (htype : type ≠ "SYMBOL") (hkey : "type" ≠ key) {k : String}
    (hk : "type" ≠ k) {w : Value} (hw : GrammarDocument.symbols w.sorted = []) (v : Value) :
    GrammarDocument.symbols (tagged type [(k, w), (key, v)]).sorted =
      GrammarDocument.symbols v.sorted := by
  have hfront : GrammarDocument.symbolsOfMembers
      (Value.putMember k w.sorted [("type", .string type)]) = [] := by
    rw [symbolsOfMembers_putMember rfl, hw]
  show GrammarDocument.symbols (.object (Value.putMember key v.sorted
    (Value.putMember k w.sorted [("type", .string type)]))) = _
  rw [GrammarDocument.symbols, symbolsOfMembers_putMember hfront, ownSymbol_of_type_ne htype,
    List.nil_append]
  rw [Value.lookup_putMember, if_neg hkey, Value.lookup_putMember, if_neg hk]
  rfl

theorem symbols_symbol (name : String) :
    GrammarDocument.symbols (tagged "SYMBOL" [("name", .string name)]).sorted = [name] := by
  show GrammarDocument.symbols
    (.object (Value.putMember "name" (.string name) [("type", .string "SYMBOL")])) = _
  rw [GrammarDocument.symbols, symbolsOfMembers_putMember rfl, GrammarDocument.ownSymbol,
    Value.lookup_putMember, Value.lookup_putMember]
  rfl

mutual

/-- **The symbols of a body** are found in its value, though members of objects are sorted there. -/
theorem symbols_sorted : ∀ b : RuleBody, GrammarDocument.symbols b.value.sorted = b.symbols
  | .symbol rule => symbols_symbol rule.text
  | .literal _ => symbols_tagged (by decide) (by decide) _
  | .seq parts | .choice parts => by
    rw [value, symbols_tagged (by decide) (by decide)]
    exact symbolsOfItems_sorted parts
  | .repetition part => by
    rw [value, symbols_tagged (by decide) (by decide)]
    exact symbols_sorted part
  | .field _ part => by
    rw [value, symbols_tagged_cons (by decide) (by decide) (by decide) rfl]
    exact symbols_sorted part
  | .prec level part => by
    have hlevel : GrammarDocument.symbols level.value.sorted = [] := by cases level <;> rfl
    rw [value, symbols_tagged_cons (by decide) (by decide) (by decide) hlevel]
    exact symbols_sorted part

theorem symbolsOfItems_sorted : ∀ bs : List RuleBody,
    GrammarDocument.symbolsOfItems (Value.sortedItems (values bs)) = symbolsOfParts bs
  | [] => rfl
  | b :: bs => by
    rw [values, Value.sortedItems, GrammarDocument.symbolsOfItems, symbols_sorted b,
      symbolsOfItems_sorted bs, symbolsOfParts]

end

theorem symbolsOfItems_rules (rules : List (Identifier × RuleBody)) :
    GrammarDocument.symbolsOfItems (rules.map fun r ↦ r.2.value.sorted) =
      rules.flatMap fun r ↦ r.2.symbols := by
  induction rules with
  | nil => rfl
  | cons r rs ih =>
    rw [List.map_cons, GrammarDocument.symbolsOfItems, symbols_sorted, ih, List.flatMap_cons]

end RuleBody

/-! ## Reading grammars -/

namespace AbstractGrammar

variable {g : AbstractGrammar} {n : Node}

/-- The rules as members of an object. -/
def members (g : AbstractGrammar) : List (String × Value) :=
  g.rules.map fun r ↦ (r.1.text, r.2.value)

theorem nodup_members (g : AbstractGrammar) : (g.members.map Prod.fst).Nodup := by
  rw [members, List.map_map]
  exact g.nodup

theorem depth_document (g : AbstractGrammar) :
    g.document.depth = Value.membersDepth g.members + 2 := by
  simp [document, members, Value.depth, Value.membersDepth]

/-- What is read of the document. -/
def reading (g : AbstractGrammar) : GrammarDocument where
  name := some g.name.text
  rules := g.members.map fun e ↦ (e.1, e.2.sorted)

/-- **The grammar that is read** has the name, the names of the rules and the symbols. -/
theorem lists_reading (g : AbstractGrammar) :
    g.reading.grammar.Lists (some g.name.text) g.names g.symbols := by
  have hnames : g.reading.rules.map Prod.fst = g.names := by
    rw [reading, members, List.map_map, List.map_map]
    rfl
  have hsymbols : GrammarDocument.symbolsOfItems (g.reading.rules.map Prod.snd) = g.symbols := by
    rw [reading, members, List.map_map, List.map_map]
    exact RuleBody.symbolsOfItems_rules g.rules
  rw [← hnames, ← hsymbols]
  simpa [reading] using g.reading.lists_grammar

/-- The document is read as far as its rules are. -/
theorem ofNode_of_ordered (h : n.ordered? = some g.document) :
    ∃ rulesNode : Node, rulesNode.ordered? = some (.object g.members) ∧
      GrammarDocument.ofNode n = (do
        let rules ← GrammarDocument.rulesOfNode (Json.deepest - 1) rulesNode
        return { name := some g.name.text, rules }) := by
  obtain ⟨start, ms, stop, rfl, hms⟩ := Node.eq_object_of_ordered h
  obtain ⟨nameKey, nameNode, ms, rfl, hnameKey, hname, hms⟩ :=
    Node.exists_of_orderedMembers_eq_cons hms
  obtain ⟨rulesKey, rulesNode, ms, rfl, hrulesKey, hrules, hms⟩ :=
    Node.exists_of_orderedMembers_eq_cons hms
  obtain rfl := Node.eq_nil_of_orderedMembers hms
  refine ⟨rulesNode, hrules, ?_⟩
  rw [GrammarDocument.ofNode, Json.deepest, Json.goInto_succ]
  show (GrammarDocument.setMembers 126 [] {} _).bind _ = _
  rw [GrammarDocument.setMembers_cons hnameKey rfl (by simp), GrammarDocument.setField,
    Node.optionalText_of_ordered hname]
  show (GrammarDocument.setMembers 126 [.name] { name := some g.name.text } _).bind _ = _
  rw [GrammarDocument.setMembers_cons hrulesKey rfl (by simp), GrammarDocument.setField]
  cases GrammarDocument.rulesOfNode 126 rulesNode with
  | error f => rfl
  | ok rules => rfl

/-- What is decoded of a text that the document is written as. -/
theorem ofJson_eq {source : String} (h : g.WritesDocument source) :
    ∃ rulesNode : Node, rulesNode.ordered? = some (.object g.members) ∧
      Grammar.ofJson source = (do
        let rules ← GrammarDocument.rulesOfNode (Json.deepest - 1) rulesNode
        return GrammarDocument.grammar { name := some g.name.text, rules }) := by
  obtain ⟨n, hn, hread⟩ := Json.Document.read_of_writes h g.isExact_document
  obtain ⟨rulesNode, hrules, hof⟩ := ofNode_of_ordered hn
  refine ⟨rulesNode, hrules, ?_⟩
  rw [Grammar.ofJson, hread, Json.Document.decode, hof]
  cases GrammarDocument.rulesOfNode (Json.deepest - 1) rulesNode with
  | error f => rfl
  | ok rules => rfl

/-- **A grammar that is written as a document is read.** -/
theorem ofJson_of_writes {source : String} (h : g.WritesDocument source)
    (hdepth : g.document.depth ≤ Json.deepest) :
    Grammar.ofJson source = .ok g.reading.grammar := by
  obtain ⟨rulesNode, hrules, hof⟩ := ofJson_eq h
  rw [depth_document, Json.deepest, Nat.succ_le_succ_iff] at hdepth
  have hread : GrammarDocument.rulesOfNode (Json.deepest - 1) rulesNode = .ok g.reading.rules := by
    have hnodup : (([] : List (String × Value)).map Prod.fst ++ g.members.map Prod.fst).Nodup :=
      g.nodup_members
    rw [Json.deepest, GrammarDocument.rulesOfNode_of_ordered hrules (by omega),
      GrammarDocument.putBodies_of_nodup hnodup]
    rfl
  rw [hof, hread]
  rfl

/-- **A grammar is turned down** whose document has lists and objects in too many others. -/
theorem ofJson_of_depth_lt {source : String} (h : g.WritesDocument source)
    (hdepth : Json.deepest < g.document.depth) :
    ∃ stop, Grammar.ofJson source = .error ⟨.tooDeep, stop⟩ := by
  obtain ⟨rulesNode, hrules, hof⟩ := ofJson_eq h
  rw [depth_document, Json.deepest] at hdepth
  obtain ⟨stop, hstop⟩ : ∃ stop, GrammarDocument.rulesOfNode (Json.deepest - 1) rulesNode = _ :=
    GrammarDocument.rulesOfNode_of_depth_lt hrules (by omega)
  rw [hstop] at hof
  exact ⟨stop, hof⟩

end AbstractGrammar

end Concord
