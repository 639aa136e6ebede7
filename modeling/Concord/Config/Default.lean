import Concord.Check.Basic
import Concord.Config.Value

/-!
# The configuration that is built in

It expects the usual places of the artifacts of a Stata grammar, and checks what such a grammar
should have.
-/

set_option autoImplicit false

namespace Concord.Config

/-- The categories that are built in. -/
def defaultCategories : List Category :=
  [{ name := "keywords"
     description := some "Command keywords are scoped, declared and highlighted"
     checks :=
      [.scope "keyword.control.stata",
        .scope "keyword.other.stata",
        .rule "identifier",
        .capture "identifier" "keyword",
        .predicate "keyword" "match?" "^(in|using|do|run|include)$",
        .accepts "keyword" "using",
        .contains .highlights "((identifier) @keyword"] },
    { name := "strings"
      description := some "Double-quoted strings"
      checks :=
        [.scope "string.quoted.double.stata",
          .rule "double_string",
          .capture "double_string" "string",
          .contains .highlights "(double_string) @string"] },
    { name := "macros"
      description := some "Global macro references"
      checks :=
        [.scope "variable.other.global.stata",
          .rule "global_macro",
          .capture "global_macro" "variable"] }]

/-- A check as a value of a configuration. -/
def Value.ofCheck (c : Check) : Value :=
  .table none (("kind", .string c.kind.key) :: c.kind.fields.zip (c.values.map .string))

/-- A category as a value of a configuration. -/
def Value.ofCategory (c : Category) : Value :=
  .table none ([("name", .string c.name)] ++
    (c.description.map fun d ↦ ("description", Value.string d)).toList ++
    [("checks", .list none (c.checks.map Value.ofCheck))])

/-- The built-in configuration. -/
def defaults : Value :=
  .table none
    [("artifacts", .table none
      [("root", .string "."), ("grammar", .string "grammar.js"),
        ("highlights", .string "queries/highlights.scm"),
        ("reference", .string "../sight/client/syntaxes/stata.tmLanguage.json")]),
      ("categories", .list none (defaultCategories.map Value.ofCategory))]

end Concord.Config
