import Workbench.Program.Basic
import Workbench.Proofs.Text.Lossy
import Workbench.Proofs.Text.Trim

/-! The lines of a stream do not depend on the pieces in which it arrives, and they are the lines of
the text that the whole stream stands for. -/
namespace Workbench.LineReader

/-- The lines of a whole stream: what stands between its line ends, and what follows the last one
unless this is nothing. -/
def linesOf (bytes : List UInt8) : List String :=
  let pieces := bytes.splitOn lineEnd
  (if pieces.getLast? = some [] then pieces.dropLast else pieces).map lineText

theorem splitOn_cons (b : UInt8) (rest : List UInt8) :
    (b :: rest).splitOn lineEnd =
      if b = lineEnd then [] :: rest.splitOn lineEnd
      else (rest.splitOn lineEnd).modifyHead (b :: ·) := by
  rw [List.splitOn, List.splitOnP_cons_eq_if_modifyHead]
  simp only [beq_iff_eq]
  rfl

/-- Cutting at each line end as it comes is cutting at all of them. -/
theorem cut_of_splitOn (pending bytes : List UInt8) (front : List (List UInt8)) (last : List UInt8)
    (pieces : (bytes.splitOn lineEnd).modifyHead (pending ++ ·) = front ++ [last]) :
    cut pending bytes = (front.map lineText, last) := by
  -- the pending bytes are the beginning of the first piece
  induction bytes generalizing pending front with
  | nil =>
    rw [List.splitOn_nil, List.modifyHead_cons, List.append_nil] at pieces
    obtain ⟨rfl, same⟩ := (List.append_eq_singleton_iff.mp pieces.symm).resolve_right (by simp)
    cases same
    rfl
  | cons b rest ih =>
    rw [splitOn_cons] at pieces
    rw [cut]
    by_cases ends : b = lineEnd
    · rw [if_pos ends, List.modifyHead_cons, List.append_nil] at pieces
      rw [if_pos ends]
      cases front with
      | nil => simp at pieces
      | cons first front =>
        rw [List.cons_append, List.cons.injEq] at pieces
        rw [ih [] front ((congrFun List.modifyHead_id _).trans pieces.2), pieces.1]
        rfl
    · rw [if_neg ends, List.modifyHead_modifyHead] at pieces
      rw [if_neg ends]
      refine ih (pending ++ [b]) front ?_
      rw [← pieces]
      congr 1
      funext piece
      simp

theorem cut_append (pending front back : List UInt8) :
    cut pending (front ++ back) =
      ((cut pending front).1 ++ (cut (cut pending front).2 back).1,
        (cut (cut pending front).2 back).2) := by
  induction front generalizing pending with
  | nil => rfl
  | cons b rest ih =>
    rw [List.cons_append, cut, cut]
    by_cases ends : b = lineEnd
    · rw [if_pos ends, if_pos ends, ih]
      rfl
    · rw [if_neg ends, if_neg ends, ih]

/-- A piece may be taken in by parts. -/
theorem readAll_append (r : LineReader) (front back : List UInt8) :
    r.readAll [front ++ back] = (r.feed front).1 ++ (r.feed front).2.readAll [back] := by
  simp only [readAll, feed, cut_append, List.append_assoc]

theorem readAll_flatten (r : LineReader) (pieces : List (List UInt8)) :
    r.readAll pieces = r.readAll [pieces.flatten] := by
  induction pieces generalizing r with
  | nil => rfl
  | cons piece rest ih =>
    rw [List.flatten_cons, readAll_append, ← ih]
    rfl

/-- In whatever pieces a stream arrives, its lines are read. -/
theorem readAll_eq_linesOf (pieces : List (List UInt8)) :
    readAll {} pieces = linesOf pieces.flatten := by
  rw [readAll_flatten]
  generalize pieces.flatten = bytes
  rcases List.eq_nil_or_concat (bytes.splitOn lineEnd) with empty | ⟨front, last, split⟩
  · exact absurd empty (List.splitOn_ne_nil _ _)
  · rw [List.concat_eq_append] at split
    have read := cut_of_splitOn [] bytes front last ((congrFun List.modifyHead_id _).trans split)
    have whole : readAll {} [bytes] = front.map lineText ++ finish ⟨last⟩ := by
      simp only [readAll, feed, read]
    rw [whole, finish, linesOf, split, List.getLast?_concat]
    by_cases nothing : last = []
    · simp [nothing]
    · simp [nothing]

/-- Nothing stands behind the last line end exactly if the stream ends with it, or is empty. -/
theorem exists_last_piece (bytes : List UInt8) :
    ∃ front last, bytes.splitOn lineEnd = front ++ [last] ∧
      (last = [] ↔ bytes = [] ∨ bytes.getLast? = some lineEnd) := by
  by_cases member : lineEnd ∈ bytes
  · obtain ⟨back, front, same, free⟩ :=
      List.eq_append_cons_of_mem (List.mem_reverse.mpr member)
    have cut : bytes = front.reverse ++ lineEnd :: back.reverse := by
      simpa using congrArg List.reverse same
    refine ⟨front.reverse.splitOn lineEnd, back.reverse, ?_, ?_⟩
    · rw [cut, List.splitOn_append_cons_self,
        List.splitOn_eq_singleton (mt List.mem_reverse.mp free)]
    · cases back with
      | nil => simp [cut]
      | cons b back =>
        -- the last byte is not a line end
        have other : b ≠ lineEnd := fun equal => free (equal ▸ List.mem_cons_self)
        have ending : bytes.getLast? = some b := by
          rw [cut, List.reverse_cons, ← List.cons_append, ← List.append_assoc,
            List.getLast?_concat]
        rw [ending]
        simp [cut, other]
  · refine ⟨[], bytes, List.splitOn_eq_singleton member, ?_⟩
    have other : bytes.getLast? ≠ some lineEnd :=
      fun last => member (List.mem_of_getLast? last)
    simp [other]

/-- Only carriage returns are dropped from the text of a line without line ends. -/
theorem lineText_of_free (piece : List UInt8) (free : '\n' ∉ Text.decodeLossy piece) :
    lineText piece =
      String.ofList (Text.dropLastWhile (fun c => c == '\r') (Text.decodeLossy piece)) := by
  rw [lineText, Text.dropLastWhile_congr]
  intro c member
  have other : c ≠ '\n' := fun same => free (same ▸ member)
  simp [other]

/-- In whatever pieces a stream arrives, its lines are those of the text that the whole stream stands
for, without the carriage returns at their ends. What follows the last line end is a line unless the
stream ends there, or is empty. To decode each line is to decode the whole stream. -/
theorem lines_of_decoded (pieces : List (List UInt8)) :
    let stream := pieces.flatten
    let parts := Text.splitAt '\n' (Text.decodeLossy stream)
    readAll {} pieces =
      (if stream = [] ∨ stream.getLast? = some lineEnd then parts.dropLast else parts).map
        (fun part => String.ofList (Text.dropLastWhile (fun c => c == '\r') part)) ∧
    parts = (stream.splitOn lineEnd).map Text.decodeLossy := by
  intro stream parts
  have decoded : parts = (stream.splitOn lineEnd).map Text.decodeLossy :=
    Text.splitAt_decodeLossy stream
  refine ⟨?_, decoded⟩
  have read (piece : List UInt8) (listed : piece ∈ stream.splitOn lineEnd) : lineText piece =
      String.ofList (Text.dropLastWhile (fun c => c == '\r') (Text.decodeLossy piece)) := by
    refine lineText_of_free piece fun member => ?_
    have part : Text.decodeLossy piece ∈ parts := decoded ▸ List.mem_map_of_mem listed
    exact (Text.mem_of_mem_splitAt '\n' _ _ part '\n' member).2 rfl
  obtain ⟨front, last, split, ends⟩ := exists_last_piece stream
  rw [readAll_eq_linesOf, linesOf, decoded, split]
  rw [split] at read
  -- the last piece is left out in the same cases, and every other is read alike
  have nothing : (front ++ [last]).getLast? = some [] ↔
      stream = [] ∨ stream.getLast? = some lineEnd := by
    rw [List.getLast?_concat, Option.some.injEq, ends]
  simp only [nothing]
  split
  · rw [List.map_append, List.map_singleton, List.dropLast_concat, List.dropLast_concat,
      List.map_map]
    exact List.map_congr_left fun piece listed => read piece (List.mem_append_left _ listed)
  · rw [List.map_map]
    exact List.map_congr_left read

end Workbench.LineReader
