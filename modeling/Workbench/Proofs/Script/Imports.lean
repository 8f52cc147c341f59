import Workbench.Proofs.Script.Statement

/-!
# Blocks of imports

A block with one import on each line is rewritten line by line: at most one rule rewrites an import,
the rules before it keep the line, and the rules behind it keep the comment that it leaves.
-/
namespace Workbench.Script

open Pattern

/-- The clause of an import of the view library: the library itself, names of it, or both. -/
inductive IsReactClause : String → Prop where
  | alone : IsReactClause "React"
  | both {names : String} (flat : IsFlat names) : IsReactClause ("React, \x7b" ++ names ++ "\x7d")
  | named {names : String} (flat : IsFlat names) : IsReactClause ("\x7b" ++ names ++ "\x7d")

/-- What an import becomes. -/
inductive Import.Becomes : Import → String → Prop where
  | react {i : Import} {clause : String} (names : i.clause = some clause)
    (isReact : IsReactClause clause) (package : i.specifier = "react") :
    Becomes i "// React imported from CDN"
  | reactDom {i : Import} (names : i.clause = some "ReactDOM")
    (package : i.specifier = "react-dom" ∨ i.specifier = "react-dom/client") :
    Becomes i "// ReactDOM imported from CDN"
  | relative {i : Import} {clause : String} (names : i.clause = some clause)
    (isRelative : IsRelative i.specifier) :
    Becomes i ("// import " ++ clause ++ " from " ++ i.specifier)
  | relativeEffect {i : Import} (nameless : i.clause = none) (isRelative : IsRelative i.specifier) :
    Becomes i ("// import " ++ i.specifier)
  | kept {i : Import} (package : i.specifier ∉ ["react", "react-dom", "react-dom/client"])
    (outside : ¬IsRelative i.specifier) : Becomes i i.text

namespace Import

variable {i : Import}

/-- A fixed comment in which the keyword does not stand alone is kept by every rule. -/
theorem turnsLine_of_comment {front back : List RewriteRule} {rule : RewriteRule} {comment : String}
    (rules : importRules = front ++ rule :: back)
    (kept : ∀ other ∈ front, other.TurnsLine Opens i.text.toList i.text.toList)
    (turn : rule.TurnsLine Opens i.text.toList comment.toList)
    (begun : comment.toList.head? = some '/') (keyless : isKeyless comment.toList = true) :
    TurnsLine Opens importRules i.text.toList comment.toList := by
  rw [rules]
  refine .of_one i.begun ⟨'/', begun, .inr rfl⟩ kept turn fun other listed => ?_
  exact turnsLine_of_isKeyless keyless other (by simp [rules, listed])

/-- An import of the view library is rewritten by the first rule where it imports the library
itself, and by the second where it imports names only. -/
theorem turnsLine_react {clause : String} (names : i.clause = some clause)
    (isReact : IsReactClause clause) (package : i.specifier = "react") :
    TurnsLine Opens importRules i.text.toList "// React imported from CDN".toList := by
  have closing : (literal "react").Reads i.specifier.toList [] :=
    (reads_literal_iff _ _ _).mpr ⟨by rw [package], rfl⟩
  have filled (before behind : List (Nat × List Char)) :
      fillFrom (behind ++ before) [.text "// React imported from CDN"] =
        "// React imported from CDN".toList := by simp [fillFrom]
  have first (opening : ∃ groups, reactFront.Reads (headOf i.clause).toList groups) :
      TurnsLine Opens importRules i.text.toList "// React imported from CDN".toList := by
    have turn := i.turns isImportRule_react opening ⟨_, closing⟩ fun _ _ _ _ => filled _ _
    exact turnsLine_of_comment importRules_eq (List.forall_mem_nil _) turn rfl (by decide)
  cases isReact with
  | alone => exact first ⟨_, names ▸ reads_react_alone⟩
  | both flat => exact first (names ▸ exists_reads_react flat)
  | named flat =>
    have kept : reactRule.TurnsLine Opens i.text.toList i.text.toList := by
      rw [toList_text]
      exact isImportRule_react.turnsLine_of_apart i.line fun back ends before _ reads _ =>
        not_reads_react_of_flat flat (names ▸ ends) before reads
    have turn := i.turns isImportRule_named ⟨_, names ▸ reads_named flat⟩ ⟨_, closing⟩
      fun _ _ _ _ => filled _ _
    exact turnsLine_of_comment importRules_eq (List.forall_mem_singleton.mpr kept) turn rfl
      (by decide)

theorem turnsLine_dom (names : i.clause = some "ReactDOM")
    (package : i.specifier = "react-dom" ∨ i.specifier = "react-dom/client") :
    TurnsLine Opens importRules i.text.toList "// ReactDOM imported from CDN".toList := by
  have other : i.specifier ≠ "react" := by
    rcases package with same | same <;> simp [same]
  have closing := (reads_domPackage_iff i.specifier.toList).mpr
    (package.imp (congrArg String.toList) (congrArg String.toList))
  have turn := i.turns isImportRule_dom ⟨_, names ▸ reads_dom⟩ closing fun _ _ _ _ =>
    show _ = "// ReactDOM imported from CDN".toList by simp [fillFrom, domRule]
  exact turnsLine_of_comment importRules_eq (i.keeps_react other) turn rfl (by decide)

/-- The rules for packages keep the import of a file of the project. -/
theorem keeps_packages_of_relative (isRelative : IsRelative i.specifier) :
    ∀ rule ∈ [reactRule, namedRule] ++ [domRule],
      rule.TurnsLine Opens i.text.toList i.text.toList :=
  i.keeps_packages (isRelative.notMem (by decide))

theorem turnsLine_relative {clause : String} (names : i.clause = some clause)
    (isRelative : IsRelative i.specifier) : TurnsLine Opens importRules i.text.toList
      ("// import " ++ clause ++ " from " ++ i.specifier).toList := by
  have isClause := i.isClause clause names
  have reads := (isRelative_iff i.isSpecifier.plain).mp isRelative
  have turn : relativeRule.TurnsLine Opens i.text.toList
      ("// import " ++ clause ++ " from " ++ i.specifier).toList := by
    refine i.turns isImportRule_relative (names ▸ exists_reads_clause isClause)
      ⟨_, .capture 2 reads⟩ fun before behind opening closing => ?_
    obtain ⟨inner, own, rfl⟩ := (reads_capture_iff 2).mp closing
    obtain rfl := ((reads_relativeSpecifier_iff _ _).mp own).1
    rw [names] at opening
    rw [groups_of_reads_clause isClause opening]
    simp [fillFrom, relativeRule, List.lookup_cons]
  have plain : IsUnquoted ("// import " ++ clause ++ " from " ++ i.specifier).toList := by
    rw [String.toList_append, String.toList_append, String.toList_append]
    exact .append (.append (.append (by decide) isClause.unquoted) (by decide)) i.isSpecifier.plain
  rw [importRules_eq]
  exact .of_one i.begun ⟨'/', by simp, .inr rfl⟩ (i.keeps_packages_of_relative isRelative) turn
    (List.forall_mem_singleton.mpr (turnsLine_effect_of_plain plain))

theorem turnsLine_relativeEffect (nameless : i.clause = none)
    (isRelative : IsRelative i.specifier) :
    TurnsLine Opens importRules i.text.toList ("// import " ++ i.specifier).toList := by
  have reads := (isRelative_iff i.isSpecifier.plain).mp isRelative
  have turn : effectRule.TurnsLine Opens i.text.toList ("// import " ++ i.specifier).toList := by
    refine i.turns isImportRule_effect ⟨_, nameless ▸ reads_effect⟩ ⟨_, .capture 1 reads⟩
      fun before behind opening closing => ?_
    obtain ⟨inner, -, rfl⟩ := (reads_capture_iff 1).mp closing
    simp [fillFrom, effectRule]
  have kept : relativeRule.TurnsLine Opens i.text.toList i.text.toList := by
    rw [toList_text]
    exact isImportRule_relative.turnsLine_of_apart i.line fun back ends before _ opening _ =>
      not_reads_clause_of_effect (nameless ▸ ends) before opening
  have kept' := List.forall_mem_append.mpr
    ⟨i.keeps_packages_of_relative isRelative, List.forall_mem_singleton.mpr kept⟩
  rw [importRules_eq]
  exact .of_one i.begun ⟨'/', by simp, .inr rfl⟩ kept' turn (List.forall_mem_nil _)

/-- What no rule looks for is kept. -/
theorem turnsLine_kept (package : i.specifier ∉ ["react", "react-dom", "react-dom/client"])
    (outside : ¬IsRelative i.specifier) :
    TurnsLine Opens importRules i.text.toList i.text.toList :=
  .of_kept i.begun (List.forall_mem_append.mpr ⟨i.keeps_packages package, i.keeps_files outside⟩)

theorem Becomes.turnsLine {out : String} (becomes : i.Becomes out) :
    TurnsLine Opens importRules i.text.toList out.toList := by
  cases becomes with
  | react names isReact package => exact turnsLine_react names isReact package
  | reactDom names package => exact turnsLine_dom names package
  | relative names isRelative => exact turnsLine_relative names isRelative
  | relativeEffect nameless isRelative => exact turnsLine_relativeEffect nameless isRelative
  | kept package outside => exact turnsLine_kept package outside

end Import

/-- A block of imports is neutralized line by line. -/
theorem imports_neutralized {imports : List Import} {outs : List String} {ending : String}
    (become : List.Forall₂ Import.Becomes imports outs) (ends : ending = "" ∨ ending = "\n") :
    neutralizeImports ("\n".intercalate (imports.map Import.text) ++ ending) =
      "\n".intercalate outs ++ ending := by
  have turns : List.Forall₂ (TurnsLine Opens importRules)
      ((imports.map Import.text).map String.toList) (outs.map String.toList) := by
    rw [List.map_map, List.forall₂_map_left_iff, List.forall₂_map_right_iff]
    exact become.imp fun i out becomes => becomes.turnsLine
  have newline : ∀ rule ∈ importRules, ∀ before rest,
      rule.pattern.FailsAt ⟨before, '\n' :: rest⟩ := by
    intro rule listed
    obtain ⟨_, _, isRule⟩ := isImportRule_of_mem listed
    exact isRule.newline
  have ends' : ending.toList = [] ∨ ending.toList = ['\n'] := by
    rcases ends with rfl | rfl <;> simp
  rw [neutralizeImports, String.toList_append, String.toList_intercalate]
  rw [show "\n".toList = ['\n'] from rfl, applyAll_lines newline ends' turns]
  apply String.toList_injective
  rw [String.toList_ofList, String.toList_append, String.toList_intercalate]
  rfl

/-- An import of each kind. -/
def sample : List Import :=
  [⟨some "React", .single, "react", true, by decide, by decide⟩,
   ⟨some ("React, \x7b" ++ " useState " ++ "\x7d"), .double, "react", false, by decide, by decide⟩,
   ⟨some ("\x7b" ++ "useRef" ++ "\x7d"), .double, "react", true, by decide, by decide⟩,
   ⟨some "ReactDOM", .single, "react-dom/client", true, by decide, by decide⟩,
   ⟨some "* as parts", .single, "../parts/import", false, by decide, by decide⟩,
   ⟨none, .double, "./index.css", true, by decide, by decide⟩,
   ⟨some "React", .single, "preact", true, by decide, by decide⟩,
   ⟨none, .single, "", false, by decide, by decide⟩]

theorem sample_neutralized :
    neutralizeImports ("\n".intercalate (sample.map Import.text) ++ "\n") =
      "\n".intercalate
        ["// React imported from CDN", "// React imported from CDN", "// React imported from CDN",
         "// ReactDOM imported from CDN", "// import * as parts from ../parts/import",
         "// import ./index.css", "import React from 'preact';", "import ''"] ++ "\n" := by
  have flat : IsFlat " useState " ∧ IsFlat "useRef" := by decide
  have above : IsRelative "../parts/import" := ⟨"parts/import", by decide, .inr (by decide)⟩
  have beside : IsRelative "./index.css" := ⟨"index.css", by decide, .inl (by decide)⟩
  have comment : "// import " ++ "* as parts" ++ " from " ++ "../parts/import" =
      "// import * as parts from ../parts/import" := by decide
  have comment' : "// import " ++ "./index.css" = "// import ./index.css" := by decide
  have line : "import React from 'preact';" = (Import.text sample[6]) := by decide
  have line' : "import ''" = Import.text sample[7] := by decide
  rw [← comment, ← comment', line, line']
  refine imports_neutralized ?_ (.inr rfl)
  exact .cons (.react rfl .alone rfl) <| .cons (.react rfl (.both flat.1) rfl) <|
    .cons (.react rfl (.named flat.2) rfl) <| .cons (.reactDom rfl (.inr rfl)) <|
    .cons (.relative rfl above) <| .cons (.relativeEffect rfl beside) <|
    .cons (.kept (by decide) (not_isRelative_of_head (by decide))) <|
    .cons (.kept (by decide) (not_isRelative_of_head (by decide))) .nil

end Workbench.Script
