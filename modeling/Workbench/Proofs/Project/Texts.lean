import Workbench.Project.Starter
import Workbench.Proofs.Bundle.Document
import Workbench.Proofs.Pattern.Front
import Workbench.Proofs.Script.Rules

/-! What a bundle makes of the texts of a new project. The title stands in the page and in the view.
In the page it cannot hold a tag that closes head or body, since it has no slash, and in the view it
stands behind the entry symbol, which no rule takes away. -/
namespace Workbench.Starter

open Workbench.Bundle Pattern Script

theorem unlines_nil : unlines [] = "" := rfl

theorem unlines_cons (line : String) (rest : List String) :
    unlines (line :: rest) = line ++ "\n" ++ unlines rest := by
  simp [unlines]

theorem unlines_append (lines more : List String) :
    unlines (lines ++ more) = unlines lines ++ unlines more := by
  simp [unlines, String.join_append]

/-- The lines of the page of a new project that come before its title. -/
def pageTop : List String :=
  ["<!DOCTYPE html>",
   "<html lang=\"en\">",
   "  <head>",
   "    <meta charset=\"UTF-8\" />",
   "    <meta name=\"viewport\" content=\"width=device-width, initial-scale=1.0\" />"]

/-- The lines of the page from its title on. The title is followed by what stands in front of the
tag that closes the head, and the mount element by what stands in front of the one that closes the
body. -/
def pageBottom (title link script : String) : List String :=
  ["    <title>" ++ title ++ "</title>",
   "  " ++ link ++ "</head>",
   "  <body>",
   "    <div id=\"root\"></div>",
   "  " ++ script ++ "</body>",
   "</html>"]

theorem documentHtml_eq (title : String) :
    documentHtml title = unlines (pageTop ++ pageBottom title "" "") := rfl

theorem toList_pageBottom (title link script : String) :
    (unlines (pageBottom title link script)).toList = "    <title>".toList ++ (title.toList ++
      ('<' :: ("/title>\n  ".toList ++ (link.toList ++ ('<' :: '/' :: "head>".toList ++
        ("\n  <body>\n    <div id=\"root\"></div>\n  ".toList ++ (script.toList ++
          ('<' :: '/' :: "body>".toList ++ "\n</html>\n".toList)))))))) := by
  simp only [pageBottom, unlines_cons, unlines_nil, String.toList_append]
  repeat rw [String.toList_ofList]
  simp only [List.append_assoc, List.cons_append, List.nil_append, List.append_nil]

/-- Neither of the tags begins in front of the title. -/
theorem isFreeOf_pageTop (name : List Char) (tag : name = "head>".toList ∨ name = "body>".toList) :
    Text.isFreeOf ('<' :: '/' :: name) ((unlines pageTop).toList ++ "    <title>".toList) = true := by
  simp only [pageTop, unlines_cons, unlines_nil, String.toList_append]
  repeat rw [String.toList_ofList]
  rcases tag with rfl | rfl
  · rw [String.toList_ofList]
    decide +kernel
  · rw [String.toList_ofList]
    decide +kernel

/-- The references stand directly in front of the tags that close head and body, whatever the title
is. -/
theorem injectReferences_documentHtml (title : String) (slashless : '/' ∉ title.toList) :
    injectReferences (documentHtml title) =
      unlines (pageTop ++ pageBottom title styleLink scriptTag) := by
  have text (link script : String) : (unlines (pageTop ++ pageBottom title link script)).toList =
      ((unlines pageTop).toList ++ "    <title>".toList) ++ (title.toList ++
        ('<' :: ("/title>\n  ".toList ++ (link.toList ++ ('<' :: '/' :: "head>".toList ++
          ("\n  <body>\n    <div id=\"root\"></div>\n  ".toList ++ (script.toList ++
            ('<' :: '/' :: "body>".toList ++ "\n</html>\n".toList)))))))) := by
    rw [unlines_append, String.toList_append, toList_pageBottom, List.append_assoc]
  -- neither tag begins between the title and the place where it belongs
  have first : Text.isFreeOf ('<' :: '/' :: "head>".toList)
      ('<' :: "/title>\n  ".toList) = true := by
    repeat rw [String.toList_ofList]
    decide +kernel
  have second : Text.isFreeOf ('<' :: '/' :: "body>".toList)
      ('<' :: ("/title>\n  ".toList ++ (styleLink.toList ++ ('<' :: '/' :: "head>".toList ++
        "\n  <body>\n    <div id=\"root\"></div>\n  ".toList)))) = true := by
    have link : styleLink = "<link rel=\"stylesheet\" href=\"/bundle.css\" />" := rfl
    rw [link]
    repeat rw [String.toList_ofList]
    decide +kernel
  have tags : "</head>".toList = '<' :: '/' :: "head>".toList ∧
      "</body>".toList = '<' :: '/' :: "body>".toList := ⟨rfl, rfl⟩
  apply String.toList_injective
  rw [injectReferences, String.toList_ofList, documentHtml_eq, tags.1, tags.2, text, text,
    String.toList_empty, List.nil_append, List.nil_append]
  exact insertBefore_closings _ _ _ _ _ _ _ _ _ (isFreeOf_pageTop _ (.inl rfl))
    (isFreeOf_pageTop _ (.inr rfl)) slashless first second

/-- The lines with which the view of a new project begins. -/
def namedImport : List Char := "import \x7b useState \x7d from 'react';".toList

def sheetImport : List Char := "import './App.css';".toList

def viewHead : List Char := "\n\nfunction App() \x7b".toList

def libraryComment : List Char := "// React imported from CDN".toList

def sheetComment : List Char := "// import ./App.css".toList

/-- No rule that comes before the one for named imports fits in the front of a view. -/
theorem quiet_before : ∀ rule ∈ typeRules ++ importRules.take 1,
    rule.pattern.IsQuiet [] (namedImport ++ '\n' :: sheetImport ++ viewHead) := by
  intro rule listed
  apply IsQuiet.of_failsAlong
  -- at each place the pattern fails before it comes to what follows the front
  intro tail
  delta namedImport sheetImport viewHead
  repeat rw [String.toList_ofList]
  simp only [typeRules, importRules, List.take, List.cons_append, List.nil_append, List.mem_cons,
    List.not_mem_nil, or_false] at listed
  rcases listed with rfl | rfl | rfl | rfl | rfl | rfl <;> with_unfolding_all rfl

/-- The named import is all that its rule finds in the front of a view. -/
theorem apply_namedImport (tail : List Char) : ∃ tail', RewriteRule.apply
      ⟨reactNamedImport, [.text "// React imported from CDN"]⟩
      (namedImport ++ ('\n' :: sheetImport ++ viewHead ++ tail)) =
    libraryComment ++ ('\n' :: sheetImport ++ viewHead ++ tail') := by
  apply RewriteRule.apply_front ⟨reactNamedImport, [.text "// React imported from CDN"]⟩
    (by decide) [] namedImport ('\n' :: sheetImport ++ viewHead) libraryComment fun _ => []
  · -- there is nothing in front of the import
    exact fun _ _ listed => by cases listed
  · intro tail
    with_unfolding_all rfl
  · intro tail
    rfl
  · apply IsQuiet.of_failsAlong
    intro tail
    with_unfolding_all rfl

/-- No other rule for the libraries fits in what is left, nor does the one for imports with names. -/
theorem quiet_between : ∀ rule ∈ (importRules.drop 2).take 2,
    rule.pattern.IsQuiet [] (libraryComment ++ '\n' :: sheetImport ++ viewHead) := by
  intro rule listed
  apply IsQuiet.of_failsAlong
  intro tail
  simp only [importRules, List.take, List.drop, List.mem_cons, List.not_mem_nil, or_false] at listed
  rcases listed with rfl | rfl <;> with_unfolding_all rfl

/-- The import of the style sheet is all that its rule finds. -/
theorem apply_sheetImport (tail : List Char) : ∃ tail', RewriteRule.apply
      ⟨relativeEffectImport, [.text "// import ", .group 1]⟩
      ((libraryComment ++ ['\n']) ++ (sheetImport ++ (viewHead ++ tail))) =
    (libraryComment ++ ['\n']) ++ (sheetComment ++ (viewHead ++ tail')) := by
  apply RewriteRule.apply_front ⟨relativeEffectImport, [.text "// import ", .group 1]⟩ (by decide)
    (libraryComment ++ ['\n']) sheetImport viewHead sheetComment fun tail =>
      [(1, ⟨"import '".toList.reverse ++ (libraryComment ++ ['\n']).reverse,
          "./App.css".toList ++ ("';".toList ++ tail)⟩,
        ⟨"import './App.css".toList.reverse ++ (libraryComment ++ ['\n']).reverse,
          "';".toList ++ tail⟩)]
  · apply IsQuiet.of_failsAlong
    intro tail
    with_unfolding_all rfl
  · intro tail
    with_unfolding_all rfl
  · intro tail
    have named : Cursor.upTo ⟨"import '".toList.reverse ++ (libraryComment ++ ['\n']).reverse,
          "./App.css".toList ++ ("';".toList ++ tail)⟩
        ⟨"import './App.css".toList.reverse ++ (libraryComment ++ ['\n']).reverse,
          "';".toList ++ tail⟩ = "./App.css".toList := by
      rw [Cursor.upTo, List.length_append, Nat.add_sub_cancel, List.take_left]
    simp only [Fit.fill, List.flatMap_cons, List.flatMap_nil, Fit.group, List.lookup_cons,
      beq_self_eq_true, named]
    decide
  · apply IsQuiet.of_failsAlong
    intro tail
    with_unfolding_all rfl

/-- The view of a new project begins the same whatever its title is. -/
theorem viewScript_eq (title : String) : ∃ tail, (viewScript title).toList =
    namedImport ++ ('\n' :: sheetImport ++ viewHead ++ tail) := by
  obtain ⟨more, lines⟩ : ∃ more, viewScript title =
      unlines ("import \x7b useState \x7d from 'react';" :: "import './App.css';" :: "" ::
        "function App() \x7b" :: more) := ⟨_, rfl⟩
  refine ⟨"\n".toList ++ (unlines more).toList, ?_⟩
  simp only [lines, unlines_cons, String.toList_append, List.append_assoc]
  rfl

/-- The entry symbol of a new project stands in front of the title, and no rule takes it away. -/
theorem transform_viewScript (title : String) : ∃ rest, transform (viewScript title) =
    "// React imported from CDN\n// import ./App.css\n\nfunction App() \x7b" ++ rest := by
  obtain ⟨tail, text⟩ := viewScript_eq title
  have order : rules = (typeRules ++ importRules.take 1) ++
      (⟨reactNamedImport, [.text "// React imported from CDN"]⟩ ::
        ((importRules.drop 2).take 2 ++
          [⟨relativeEffectImport, [.text "// import ", .group 1]⟩])) := rfl
  -- two rules find something in the front, and the others keep it as it is
  obtain ⟨tail₁, before⟩ := applyAll_quiet _ _ quiet_before tail
  obtain ⟨tail₂, named⟩ := apply_namedImport tail₁
  obtain ⟨tail₃, between⟩ := applyAll_quiet _ _ quiet_between tail₂
  obtain ⟨tail₄, sheet⟩ := apply_sheetImport tail₃
  refine ⟨String.ofList tail₄, ?_⟩
  rw [transform_eq, text, order]
  simp only [applyAll, List.foldl_append, List.foldl_cons, List.foldl_nil] at before between ⊢
  simp only [List.append_assoc, List.cons_append, List.nil_append] at before named between sheet ⊢
  rw [before, named, between, sheet]
  have front : "// React imported from CDN\n// import ./App.css\n\nfunction App() \x7b".toList =
      libraryComment ++ '\n' :: (sheetComment ++ viewHead) := by decide
  apply String.toList_injective
  rw [String.toList_append, front, String.toList_ofList, String.toList_ofList]
  exact (List.append_assoc libraryComment ('\n' :: (sheetComment ++ viewHead)) tail₄).symm

end Workbench.Starter
