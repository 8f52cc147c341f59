import Workbench.Bundle.Source
import Workbench.Proofs.Path.Relative
import Workbench.Proofs.Text.Split

/-! The order of scripts. The place of a script is told by the words in its last name, and scripts of
one place stay in the order given, so that the whole is the scripts of each place one after another. -/
namespace Workbench

namespace Text

theorem eq_of_cutAt? (needle text before after : List Char)
    (cut : cutAt? needle text = some (before, after)) : text = before ++ needle ++ after := by
  induction text generalizing before with
  | nil =>
    rw [cutAt?] at cut
    split at cut
    next empty =>
      cases cut
      simp [empty]
    next => cases cut
  | cons c rest ih =>
    rw [cutAt?] at cut
    split at cut
    next begins =>
      obtain ⟨back, same⟩ := List.isPrefixOf_iff_prefix.mp begins
      cases cut
      rw [← same, List.drop_left, List.nil_append]
    next =>
      obtain ⟨⟨front, back⟩, found, same⟩ := Option.map_eq_some_iff.mp cut
      cases same
      rw [ih front found]
      simp

/-- A word is found in a text exactly if it occurs there. -/
theorem contains_iff (text word : String) :
    contains text word = true ↔ word.toList <:+: text.toList := by
  rw [contains, occursIn, Option.isSome_iff_exists]
  constructor
  · rintro ⟨⟨before, after⟩, cut⟩
    exact ⟨before, after, (eq_of_cutAt? _ _ _ _ cut).symm⟩
  · rintro ⟨front, back, whole⟩
    obtain ⟨before, after, cut, -⟩ := cutAt?_append word.toList front back
    rw [whole] at cut
    exact ⟨_, cut⟩

end Text

namespace Path

/-- A path has a file name if its last component is a name. -/
theorem fileName?_eq (p : Path) :
    p.fileName? = match p.components.getLast? with
      | some (.name s) => some s
      | _ => none := by
  have components : p.components =
      p.anchor.components ++ p.trimmedBody.filterMap Component.ofSegment? := by
    rw [components, trimmedBody, filterMap_dropLastWhile]
  rw [fileName?, components]
  rcases List.eq_nil_or_concat' p.trimmedBody with empty | ⟨front, last, body⟩
  · -- nothing is left but what the path starts from
    rw [empty]
    cases p.anchor <;> rfl
  · have solid : isVoid last = false := Text.last_of_dropLastWhile _ _ _ _ body
    have meant : Component.ofSegment? last =
        some (if last = ['.', '.'] then .up else .name (String.ofList last)) := by
      rw [Component.ofSegment?, if_neg (by simp [solid])]
      split <;> rfl
    rw [body, List.getLast?_concat, List.filterMap_append, List.filterMap_cons, meant]
    by_cases up : last = ['.', '.'] <;> simp [up]

end Path

section

variable {α : Type} (key : α → Nat) (xs : List α)

theorem key_trans (a b c : α) (first : decide (key a ≤ key b) = true)
    (second : decide (key b ≤ key c) = true) : decide (key a ≤ key c) = true := by
  rw [decide_eq_true_eq] at *
  exact first.trans second

theorem key_total (a b : α) : (decide (key a ≤ key b) || decide (key b ≤ key a)) = true := by
  simpa using Nat.le_total (key a) (key b)

theorem pairwise_mergeSort_key : (xs.mergeSort fun a b => key a ≤ key b).Pairwise
    fun a b => key a ≤ key b :=
  (List.pairwise_mergeSort (key_trans key) (key_total key) xs).imp of_decide_eq_true

/-- Sorting by a key leaves what has one value of it in its order. -/
theorem filter_mergeSort_key (n : Nat) :
    (xs.mergeSort fun a b => key a ≤ key b).filter (key · = n) = xs.filter (key · = n) := by
  have level : (xs.filter (key · = n)).Pairwise fun a b => decide (key a ≤ key b) = true := by
    apply List.pairwise_of_forall_mem_list
    intro a first b second
    have first := (List.mem_filter.mp first).2
    have second := (List.mem_filter.mp second).2
    rw [decide_eq_true_eq] at *
    exact (first.trans second.symm).le
  -- the sort is stable, and it has no more of that value than was given
  have found := List.sublist_mergeSort (key_trans key) (key_total key) level List.filter_sublist
  have kept := found.filter (key · = n)
  simp only [List.filter_filter, Bool.and_self] at kept
  exact (kept.eq_of_length ((List.mergeSort_perm _ _).filter _).length_eq.symm).symm

variable {key xs}

/-- In a sorted list what lies below a bound comes before the rest. -/
theorem filter_append_filter_of_sorted (sorted : xs.Pairwise fun a b => key a ≤ key b) (n : Nat) :
    xs.filter (key · < n) ++ xs.filter (n ≤ key ·) = xs := by
  induction sorted with
  | nil => rfl
  | @cons x rest least _ ih =>
    by_cases below : key x < n
    · simpa [below, Nat.not_le.mpr below] using ih
    · have above : n ≤ key x := Nat.not_lt.mp below
      have empty : rest.filter (key · < n) = [] := by
        simpa [List.filter_eq_nil_iff] using fun y member => above.trans (least y member)
      have all : rest.filter (n ≤ key ·) = rest := by
        simpa [List.filter_eq_self] using fun y member => above.trans (least y member)
      simp [below, above, empty, all]

/-- A sorted list is what has the first value, then what has the second, and so on. -/
theorem flatMap_filter_of_sorted (sorted : xs.Pairwise fun a b => key a ≤ key b) (n : Nat) :
    ((List.range n).flatMap fun k => xs.filter (key · = k)) = xs.filter (key · < n) := by
  induction n with
  | zero => simp
  | succ n ih =>
    have cut := filter_append_filter_of_sorted (sorted.filter (key · < n + 1)) n
    rw [List.filter_filter, List.filter_filter] at cut
    rw [List.range_succ, List.flatMap_append, ih, ← cut]
    congr 1
    · apply List.filter_congr
      intro x _
      rw [Bool.eq_iff_iff]
      simp
      omega
    · rw [List.flatMap_singleton]
      apply List.filter_congr
      intro x _
      rw [Bool.eq_iff_iff]
      simp
      omega

end

namespace Bundle

/-- The last component of a path in lower case, or nothing if it is no name. -/
def lowerName (p : Path) : String :=
  match p.components.getLast? with
  | some (.name s) => Text.lower s
  | _ => ""

/-- Whether a word occurs in the last component of a path, in whatever case. -/
def Mentions (p : Path) (word : String) : Prop := word.toList <:+: (lowerName p).toList

def ofPriority (n : Nat) (scripts : List Path) : List Path :=
  scripts.filter (scriptPriority · = n)

/-- The latest place of those that the words in the name of a script stand for. -/
theorem scriptPriority_iff (p : Path) :
    (scriptPriority p = 3 ↔ Mentions p "main") ∧
    (scriptPriority p = 2 ↔ ¬Mentions p "main" ∧ Mentions p "app") ∧
    (scriptPriority p = 1 ↔ ¬Mentions p "main" ∧ ¬Mentions p "app" ∧ Mentions p "index") ∧
    (scriptPriority p = 0 ↔ ¬Mentions p "main" ∧ ¬Mentions p "app" ∧ ¬Mentions p "index") := by
  have name : Text.lower (p.fileName?.getD "") = lowerName p := by
    rw [lowerName, Path.fileName?_eq]
    split <;> rfl
  have mentions (word : String) : Text.contains (lowerName p) word = true ↔ Mentions p word :=
    Text.contains_iff _ _
  rw [scriptPriority, name]
  simp only [← mentions]
  cases Text.contains (lowerName p) "main" with
  | true => simp
  | false =>
    cases Text.contains (lowerName p) "app" with
    | true => simp
    | false => cases Text.contains (lowerName p) "index" <;> simp

theorem scriptPriority_lt (p : Path) : scriptPriority p < 4 := by
  unfold scriptPriority
  dsimp only
  split
  · decide
  · split
    · decide
    · split <;> decide

theorem orderScripts_eq_flatMap (scripts : List Path) :
    orderScripts scripts = (List.range 4).flatMap fun n => ofPriority n scripts := by
  have sorted := pairwise_mergeSort_key scriptPriority scripts
  have all : (orderScripts scripts).filter (scriptPriority · < 4) = orderScripts scripts := by
    simp [scriptPriority_lt]
  have parts := flatMap_filter_of_sorted sorted 4
  simp only [filter_mergeSort_key] at parts
  exact (parts.trans all).symm

/-- Another script is put in after those of its place that came before it, and before those that
came after it. -/
theorem exists_orderScripts_insert (front : List Path) (p : Path) (back : List Path) :
    ∃ before after, orderScripts (front ++ p :: back) = before ++ p :: after ∧
      orderScripts (front ++ back) = before ++ after := by
  obtain ⟨lower, upper, places⟩ :=
    List.append_of_mem (List.mem_range.mpr (scriptPriority_lt p))
  have once : (lower ++ scriptPriority p :: upper).Nodup := places ▸ List.nodup_range
  obtain ⟨-, once, apart⟩ := List.nodup_append.mp once
  -- to the other places the script makes no difference
  have same (n : Nat) (other : n ≠ scriptPriority p) :
      ofPriority n (front ++ p :: back) = ofPriority n (front ++ back) := by
    simp [ofPriority, other.symm]
  have below : (lower.flatMap fun n => ofPriority n (front ++ p :: back)) =
      lower.flatMap fun n => ofPriority n (front ++ back) :=
    List.flatMap_congr fun n member => same n fun here => apart n member n (by simp [here]) rfl
  have above : (upper.flatMap fun n => ofPriority n (front ++ p :: back)) =
      upper.flatMap fun n => ofPriority n (front ++ back) :=
    List.flatMap_congr fun n member => same n fun here =>
      (List.nodup_cons.mp once).1 (here ▸ member)
  refine ⟨(lower.flatMap fun n => ofPriority n (front ++ back)) ++
      ofPriority (scriptPriority p) front,
    ofPriority (scriptPriority p) back ++ upper.flatMap fun n => ofPriority n (front ++ back),
    ?_, ?_⟩
  · rw [orderScripts_eq_flatMap, places, List.flatMap_append, List.flatMap_cons, below, above]
    simp [ofPriority]
  · rw [orderScripts_eq_flatMap, places, List.flatMap_append, List.flatMap_cons]
    simp [ofPriority]

/-- The place of a script is told by the words in its last component, main before app before index.
Scripts come by place, and those of one place in the order given. So they are all there, ordering
them again changes nothing, another script leaves the order of the rest as it is, and behind a
script that mentions main all do. -/
theorem scripts_in_order :
    (∀ p, (scriptPriority p = 3 ↔ Mentions p "main") ∧
      (scriptPriority p = 2 ↔ ¬Mentions p "main" ∧ Mentions p "app") ∧
      (scriptPriority p = 1 ↔ ¬Mentions p "main" ∧ ¬Mentions p "app" ∧ Mentions p "index") ∧
      (scriptPriority p = 0 ↔ ¬Mentions p "main" ∧ ¬Mentions p "app" ∧ ¬Mentions p "index")) ∧
    (∀ scripts, orderScripts scripts = ofPriority 0 scripts ++ ofPriority 1 scripts ++
      ofPriority 2 scripts ++ ofPriority 3 scripts) ∧
    (∀ scripts, (orderScripts scripts).Perm scripts) ∧
    (∀ scripts, orderScripts (orderScripts scripts) = orderScripts scripts) ∧
    (∀ front p back, ∃ before after, orderScripts (front ++ p :: back) = before ++ p :: after ∧
      orderScripts (front ++ back) = before ++ after) ∧
    ∀ scripts, (orderScripts scripts).Pairwise fun p q => Mentions p "main" → Mentions q "main" := by
  refine ⟨scriptPriority_iff, fun scripts => ?_, fun scripts => List.mergeSort_perm _ _,
    fun scripts => ?_, exists_orderScripts_insert, fun scripts => ?_⟩
  · rw [orderScripts_eq_flatMap]
    simp [List.range_succ]
  · have same (n : Nat) : ofPriority n (orderScripts scripts) = ofPriority n scripts :=
      filter_mergeSort_key scriptPriority scripts n
    rw [orderScripts_eq_flatMap (orderScripts scripts), orderScripts_eq_flatMap scripts]
    simp only [← orderScripts_eq_flatMap, same]
  · refine (pairwise_mergeSort_key scriptPriority scripts).imp fun {p q} least main => ?_
    -- there is no later place than that of main
    have last := (scriptPriority_iff p).1.mpr main
    have bound := scriptPriority_lt q
    exact (scriptPriority_iff q).1.mp (by omega)

example : scriptPriority ⟨"src/AppMain.tsx"⟩ = 3 ∧ scriptPriority ⟨"app/Reindex.ts/."⟩ = 1 := by
  decide

end Bundle

end Workbench
