import Concord.Check.Report

/-!
# How a report is laid out

A report is a text with one part for each outcome and a line of sums behind them.  The part of an
outcome begins with the name of its category where the outcome before it is of another one; then
come a line for the check, and a line for its hint if it has one.

* `Outcome.shown` and `Report.shown` say how these texts look, character by character.
* `Report.writeAll_text` says that this is what is written of a report.
-/

set_option autoImplicit false

namespace Concord

/-! ## What stands where -/

/-- A text between the code that opens a colour and the one that resets it, if colours are
wanted. -/
def inColour (colored : Bool) (code text : String) : String :=
  if colored then code ++ text ++ "\x1b[0m" else text

/-- The part of an outcome, behind an outcome of the category `previous` or at the beginning. -/
def Outcome.shown (colored : Bool) (previous : Option String) (o : Outcome) : String :=
  (if previous = some o.category then "" else inColour colored "\x1b[34m" o.category ++ "\n") ++
    ("  " ++ (if o.passed then inColour colored "\x1b[32m" "pass"
      else inColour colored "\x1b[31m" "FAIL") ++ "  " ++ o.check.describe ++ "\n") ++
    ((o.hint.map fun h ↦ "        " ++ inColour colored "\x1b[2m" ("hint: " ++ h) ++ "\n").getD "")

/-- The text of a report: the parts of its outcomes, and how many passed and failed. -/
def Report.shown (colored : Bool) (r : Report) : String :=
  let passed := r.outcomes.countP (·.passed)
  let failed := r.outcomes.countP (!·.passed)
  String.join (List.zipWith (Outcome.shown colored) (none :: r.outcomes.map (some ·.category))
      r.outcomes) ++
    inColour colored (if failed = 0 then "\x1b[32m" else "\x1b[31m")
      (toString passed ++ " passed, " ++ toString failed ++ " failed")

/-! ## What is written -/

namespace Fragment

variable (colored : Bool)

@[simp] theorem writeAll_nil : writeAll colored [] = "" := rfl

@[simp] theorem writeAll_cons (f : Fragment) (fs : List Fragment) :
    writeAll colored (f :: fs) = f.write colored ++ writeAll colored fs := by
  rw [writeAll, List.map_cons, String.join_cons]
  rfl

@[simp] theorem writeAll_append (fs gs : List Fragment) :
    writeAll colored (fs ++ gs) = writeAll colored fs ++ writeAll colored gs := by
  rw [writeAll, List.map_append, String.join_append]
  rfl

@[simp] theorem write_plain (text : String) : (plain text).write colored = text := rfl

@[simp] theorem write_painted (c : Colour) (text : String) :
    (painted c text).write colored = inColour colored c.code text := rfl

end Fragment

namespace Report

open Fragment (writeAll writeAll_nil writeAll_cons writeAll_append write_painted)

variable (colored : Bool)

/-- The lines for a check, with the name of its category where that is another one. -/
theorem writeAll_outcomeText (previous : Option String) (o : Outcome) :
    writeAll colored ((if previous = some o.category then []
      else [.painted .blue o.category, .plain "\n"]) ++ outcomeText o) =
      o.shown colored previous := by
  have hheading : writeAll colored (if previous = some o.category then []
      else [.painted .blue o.category, .plain "\n"]) =
      if previous = some o.category then ""
      else inColour colored "\x1b[34m" o.category ++ "\n" := by
    split <;> simp [Colour.code]
  rw [writeAll_append, hheading, outcomeText, Outcome.shown]
  cases o.passed <;> cases o.hint <;> simp [Colour.code, String.append_assoc]

/-- The parts of outcomes, each of which knows the category of the one before it. -/
theorem writeAll_outcomesText (os : List Outcome) (previous : Option String) :
    writeAll colored (outcomesText previous os) =
      String.join (List.zipWith (Outcome.shown colored) (previous :: os.map (some ·.category))
        os) := by
  induction os generalizing previous with
  | nil => rfl
  | cons o os ih =>
    rw [outcomesText, writeAll_append, writeAll_outcomeText, ih, List.zipWith_cons_cons,
      String.join_cons]
    rfl

/-- **What is written of a report** are the parts of its outcomes in order, and the sums behind
them. -/
theorem writeAll_text (r : Report) : writeAll colored r.text = r.shown colored := by
  have hpassed : r.passedCount = r.outcomes.countP (·.passed) := List.countP_eq_length_filter.symm
  have hfailed : r.failedCount = r.outcomes.countP (!·.passed) := List.countP_eq_length_filter.symm
  have hcolour : (if r.failedCount = 0 then Colour.green else .red).code =
      if r.failedCount = 0 then "\x1b[32m" else "\x1b[31m" := by
    split <;> rfl
  rw [text, writeAll_append, writeAll_outcomesText, writeAll_cons, write_painted, hcolour,
    hpassed, hfailed, shown, writeAll_nil, String.append_empty]

end Report

end Concord
