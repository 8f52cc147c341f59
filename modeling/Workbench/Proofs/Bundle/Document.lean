import Workbench.Bundle.Output
import Workbench.Proofs.Text.Split

/-! Putting a reference into a document keeps everything from the mark on, so that the next mark is
still found. -/
namespace Workbench.Bundle

/-- The insertion stands before the mark that is found first. -/
theorem insertBefore_append (mark insertion front back : List Char) :
    ∃ front', insertBefore mark insertion (front ++ mark ++ back) = front' ++ mark ++ back ∧
      front'.length = front.length + insertion.length := by
  obtain ⟨before, after, cut, whole, later⟩ := Text.cutAt?_append mark front back
  have kept : mark ++ back <:+ mark ++ after := by
    have outer : mark ++ back <:+ before ++ mark ++ after := by
      rw [whole, List.append_assoc]
      exact List.suffix_append _ _
    have inner : mark ++ after <:+ before ++ mark ++ after := by
      rw [List.append_assoc]
      exact List.suffix_append _ _
    exact List.suffix_of_suffix_length_le outer inner (by simpa using later.length_le)
  obtain ⟨skipped, same⟩ := kept
  refine ⟨before ++ insertion ++ skipped, ?_, ?_⟩
  · rw [insertBefore, cut]
    simp only [List.append_assoc] at same ⊢
    rw [same]
  · have lengths := congrArg List.length whole
    have rest := congrArg List.length same
    simp only [List.length_append] at lengths rest ⊢
    omega

/-- A closing tag is found behind a title that has no slash. -/
theorem insertBefore_closing (name insertion front title between back : List Char)
    (before : Text.isFreeOf ('<' :: '/' :: name) front = true) (slashless : '/' ∉ title)
    (behind : Text.isFreeOf ('<' :: '/' :: name) ('<' :: between) = true) :
    insertBefore ('<' :: '/' :: name) insertion
        (front ++ (title ++ ('<' :: between ++ ('<' :: '/' :: name ++ back)))) =
      front ++ (title ++ ('<' :: between ++ (insertion ++ ('<' :: '/' :: name ++ back)))) := by
  have found : Text.cutAt? ('<' :: '/' :: name)
      (front ++ (title ++ ('<' :: between ++ ('<' :: '/' :: name ++ back)))) =
        some (front ++ (title ++ '<' :: between), back) := by
    rw [Text.cutAt?_of_isFreeOf _ _ _ before, Text.cutAt?_of_notMem _ _ _ _ _ slashless (by simp),
      Text.cutAt?_of_isFreeOf _ _ _ behind, Text.cutAt?_self]
    simp
  rw [insertBefore, found]
  simp

/-- Two insertions stand directly in front of the first closing tags of their names, which are found
behind a title that has no slash. -/
theorem insertBefore_closings (name name' link script front title between body back : List Char)
    (before : Text.isFreeOf ('<' :: '/' :: name) front = true)
    (before' : Text.isFreeOf ('<' :: '/' :: name') front = true) (slashless : '/' ∉ title)
    (behind : Text.isFreeOf ('<' :: '/' :: name) ('<' :: between) = true)
    (behind' : Text.isFreeOf ('<' :: '/' :: name')
      ('<' :: (between ++ (link ++ ('<' :: '/' :: name ++ body)))) = true) :
    insertBefore ('<' :: '/' :: name') script (insertBefore ('<' :: '/' :: name) link
        (front ++ (title ++ ('<' :: (between ++ ('<' :: '/' :: name ++ (body ++
          ('<' :: '/' :: name' ++ back)))))))) =
      front ++ (title ++ ('<' :: (between ++ (link ++ ('<' :: '/' :: name ++ (body ++
        (script ++ ('<' :: '/' :: name' ++ back)))))))) := by
  have linked := insertBefore_closing name link front title between
    (body ++ ('<' :: '/' :: name' ++ back)) before slashless behind
  have injected := insertBefore_closing name' script front title
    (between ++ (link ++ ('<' :: '/' :: name ++ body))) back before' slashless behind'
  simp only [List.append_assoc, List.cons_append] at linked injected ⊢
  rw [linked, injected]

/-- A document with both marks gets both references, and nothing else. -/
theorem length_injectReferences (front title head between body : String)
    (headMarked : ∃ before after, head = before ++ "</head>" ++ after)
    (bodyMarked : ∃ before after, body = before ++ "</body>" ++ after) :
    (injectReferences (front ++ title ++ head ++ between ++ body)).length =
      title.length + (front.length + head.length + between.length + body.length +
        styleLink.length + scriptTag.length) := by
  obtain ⟨beforeHead, afterHead, rfl⟩ := headMarked
  obtain ⟨beforeBody, afterBody, rfl⟩ := bodyMarked
  obtain ⟨front', linked, length'⟩ := insertBefore_append "</head>".toList styleLink.toList
    (front ++ title ++ beforeHead).toList
    ((afterHead ++ between ++ beforeBody).toList ++ "</body>".toList ++ afterBody.toList)
  obtain ⟨front'', injected, length''⟩ := insertBefore_append "</body>".toList scriptTag.toList
    (front' ++ "</head>".toList ++ (afterHead ++ between ++ beforeBody).toList) afterBody.toList
  simp only [String.toList_append, List.append_assoc] at linked injected
  have whole : (injectReferences (front ++ title ++ (beforeHead ++ "</head>" ++ afterHead) ++
      between ++ (beforeBody ++ "</body>" ++ afterBody))).toList =
        front'' ++ "</body>".toList ++ afterBody.toList := by
    simp only [injectReferences, String.toList_ofList, String.toList_append, List.append_assoc,
      linked, injected]
  rw [← String.length_toList, whole]
  simp only [List.length_append, String.length_toList, String.length_append] at length' length'' ⊢
  omega

/-- The page of a project that brings none is as much longer as its title is. -/
theorem length_of_title :
    ∃ rest, ∀ title, (injectReferences (defaultDocument title)).length = title.length + rest :=
  ⟨_, fun title => length_injectReferences
    ("<!DOCTYPE html>\n<html lang=\"en\">\n  <head>\n    <meta charset=\"UTF-8\" />\n" ++
      "    <meta name=\"viewport\" content=\"width=device-width, initial-scale=1.0\" />\n" ++
      "    <title>")
    title "</title>\n  </head>\n  <body>\n    <div id=\"" mountId "\"></div>\n  </body>\n</html>\n"
    ⟨"</title>\n  ", "\n  <body>\n    <div id=\"", rfl⟩ ⟨"\"></div>\n  ", "\n</html>\n", rfl⟩⟩

end Workbench.Bundle
