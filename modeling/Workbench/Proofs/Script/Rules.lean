import Workbench.Proofs.Pattern.Cut
import Workbench.Script.Rules

/-! The rules that prepare scripts. Each cuts the text in the one way that its pattern asks for and
replaces what lies between the gaps, and those for types only take characters away. -/
namespace Workbench.Script

open Pattern

/-- All rules, in the order in which they are applied. -/
def rules : List RewriteRule := typeRules ++ importRules

theorem transform_eq (source : String) :
    transform source = String.ofList (applyAll rules source.toList) := by
  rw [transform, neutralizeImports, stripTypes, String.toList_ofList, rules, applyAll, applyAll,
    applyAll, List.foldl_append]

end Workbench.Script
