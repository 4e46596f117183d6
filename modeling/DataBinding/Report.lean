/-!
# Reports

A report is a text of titled sections between a heading and a footer.

## Main definitions

* `Report` — a report as far as it is written
* `Report.heading`, `Report.addSection`, `Report.footer` — what is written next
-/

namespace DataBinding

/-- A report as far as it is written. -/
structure Report where
  text : String

namespace Report

/-- The report with nothing in it yet. -/
def empty : Report := ⟨""⟩

/-- Writes a line. -/
def line (r : Report) (content : String) : Report := ⟨r.text ++ content ++ "\n"⟩

/-- Writes the heading. -/
def heading (r : Report) : Report := r.line "=== scopex ==="

/-- Writes a section. -/
def addSection (r : Report) (title content : String) : Report :=
  (r.line ("--- " ++ title ++ " ---")).line content

/-- Writes the footer. -/
def footer (r : Report) : Report := r.line "--- end ---"

end Report

end DataBinding
