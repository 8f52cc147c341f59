import Workbench.Config.Store
import Workbench.Proofs.Project.Persistence
import Workbench.Proofs.Toml.Document

/-! The text of a configuration stands for it. -/
namespace Workbench

namespace Toml

theorem texts?_textList (texts : List String) : texts? (Config.textList texts) = some texts := by
  have back : (texts.map Toml.text).mapM text? = some texts := by
    induction texts with
    | nil => rfl
    | cons text texts ih =>
      rw [List.map_cons, List.mapM_cons, ih]
      rfl
  exact back

theorem orDefault_of_read {read : Toml → Option α} {v : Toml} {value : α} (default : α)
    (known : read v = some value) : orDefault read default (some v) = some value := by
  rw [orDefault, known]

theorem word16?_toNat (n : UInt16) : word16? (.whole n.toNat) = some n := by
  have fits : (n.toNat : Int) < UInt16.size := Int.ofNat_lt.mpr n.toNat_lt_size
  rw [word16?, if_pos ⟨Int.natCast_nonneg _, fits⟩, Int.toNat_natCast, UInt16.ofNat_toNat]

theorem itemsTold_texts (texts : List String) : itemsTold (texts.map Toml.text) = true := by
  induction texts with
  | nil => rfl
  | cons text texts ih => exact ih

theorem itemsDepth_texts (texts : List String) : itemsDepth (texts.map Toml.text) = 0 := by
  induction texts with
  | nil => rfl
  | cons text texts ih =>
    rw [List.map_cons, itemsDepth, ih]
    rfl

end Toml

namespace Config

theorem isPlain_text (s : String) : (Toml.text s).IsPlain := ⟨rfl, Nat.zero_lt_succ _⟩

theorem isPlain_port (port : UInt16) : (Toml.whole port.toNat).IsPlain := by
  have fits := port.toNat_lt
  have least : Int64.minValue.toInt ≤ 0 := by decide
  have most : 65536 ≤ Int64.maxValue.toInt := by decide
  refine ⟨?_, Nat.zero_lt_succ _⟩
  simp only [Toml.isTold, Bool.and_eq_true, decide_eq_true_eq]
  omega

theorem isPlain_textList (texts : List String) : (textList texts).IsPlain := by
  constructor
  · rw [textList, Toml.isTold, Toml.itemsTold_texts]
  · rw [textList, Toml.depth, Toml.itemsDepth_texts]
    decide

variable (c : Config)

theorem sections_plain : ∀ s ∈ c.sections, s.IsPlain := by
  have text (key s : String) (bare : Toml.IsBare key) :
      Toml.IsBare key ∧ (Toml.text s).IsPlain := ⟨bare, isPlain_text s⟩
  have list (key : String) (texts : List String) (bare : Toml.IsBare key) :
      Toml.IsBare key ∧ (textList texts).IsPlain := ⟨bare, isPlain_textList texts⟩
  have named (name : String) (entries : List (String × Toml)) (bare : Toml.IsBare name)
      (plain : ∀ e ∈ entries, Toml.IsBare e.1 ∧ e.2.IsPlain) :
      Toml.Section.IsPlain ⟨name, entries⟩ := ⟨bare, plain⟩
  -- a section for each group of settings, and in it an entry for each setting
  simp only [sections, List.forall_mem_cons]
  refine ⟨named "workspace" _ (by decide) ?_, named "server" _ (by decide) ?_,
    named "build" _ (by decide) ?_, named "toolchain" _ (by decide) ?_,
    named "logging" _ (by decide) ?_, by simp⟩
  · simp only [List.forall_mem_cons]
    exact ⟨text _ _ (by decide), text _ _ (by decide), by simp⟩
  · simp only [List.forall_mem_cons]
    exact ⟨text _ _ (by decide), ⟨by decide, isPlain_port _⟩, by simp⟩
  · simp only [List.forall_mem_cons]
    exact ⟨text _ _ (by decide), text _ _ (by decide), by simp⟩
  · simp only [List.forall_mem_cons]
    exact ⟨list _ _ (by decide), list _ _ (by decide), list _ _ (by decide), by simp⟩
  · simp only [List.forall_mem_cons]
    refine ⟨text _ _ (by decide), ?_⟩
    cases c.logging.file with
    | none => simp
    | some file => simpa using text "file" file (by decide)

theorem sections_distinct : (c.sections.map Toml.Section.name).Nodup ∧
    ∀ s ∈ c.sections, (s.entries.map Prod.fst).Nodup := by
  constructor
  · show ["workspace", "server", "build", "toolchain", "logging"].Nodup
    decide
  · -- without a log file its key is left out
    cases logged : c.logging.file <;> simp [sections, logged]

theorem workspace?_written (s : WorkspaceSettings) :
    workspace? (.table [("path", .text s.path), ("registry", .text s.registry)]) = some s := by
  simp [workspace?, Toml.group?, List.lookup_cons, Toml.orDefault, Toml.text?]

theorem server?_of_group (v : Toml) (host port : Option Toml) (s : ServerSettings)
    (grouped : v.group? ["host", "port"] = some [host, port])
    (named : Toml.orDefault Toml.text? ({} : ServerSettings).host host = some s.host)
    (numbered : Toml.orDefault Toml.word16? ({} : ServerSettings).port port = some s.port) :
    server? v = some s := by
  rw [server?, grouped]
  show (Toml.orDefault Toml.text? ({} : ServerSettings).host host).bind (fun host =>
    (Toml.orDefault Toml.word16? ({} : ServerSettings).port port).bind fun port =>
      some ⟨host, port⟩) = some s
  rw [named, numbered]
  rfl

theorem server?_written (s : ServerSettings) :
    server? (.table [("host", .text s.host), ("port", .whole s.port.toNat)]) = some s := by
  refine server?_of_group _ (some (.text s.host)) (some (.whole s.port.toNat)) s ?_ rfl ?_
  · simp [Toml.group?, List.lookup_cons]
  · exact Toml.orDefault_of_read _ (Toml.word16?_toNat s.port)

theorem build?_written (s : BuildSettings) :
    build? (.table [("strategy", .text s.strategy.name), ("out_dir", .text s.outDir)]) =
      some s := by
  simp [build?, Toml.group?, List.lookup_cons, Toml.orDefault, Toml.text?, Toml.strategy?]

theorem toolchain?_written (s : ToolchainSettings) :
    toolchain? (.table [("install", textList s.install), ("build", textList s.build),
      ("dev", textList s.dev)]) = some s := by
  simp [toolchain?, Toml.group?, List.lookup_cons, Toml.orDefault, Toml.texts?_textList]

theorem logging?_written (s : LoggingSettings) :
    logging? (.table (("level", .text s.level) ::
      (s.file.map fun file => ("file", Toml.text file)).toList)) = some s := by
  obtain ⟨level, file⟩ := s
  cases file <;> simp [logging?, Toml.group?, List.lookup_cons, Toml.orDefault, Toml.text?]

theorem ofToml?_of_group (v : Toml) (workspace server build toolchain logging : Option Toml)
    (grouped : v.group? ["workspace", "server", "build", "toolchain", "logging"] =
      some [workspace, server, build, toolchain, logging])
    (placed : Toml.orDefault workspace? {} workspace = some c.workspace)
    (served : Toml.orDefault server? {} server = some c.server)
    (built : Toml.orDefault build? {} build = some c.build)
    (run : Toml.orDefault toolchain? {} toolchain = some c.toolchain)
    (logged : Toml.orDefault logging? {} logging = some c.logging) : ofToml? v = some c := by
  rw [ofToml?, grouped]
  show (Toml.orDefault workspace? {} workspace).bind (fun workspace =>
    (Toml.orDefault server? {} server).bind fun server =>
      (Toml.orDefault build? {} build).bind fun build =>
        (Toml.orDefault toolchain? {} toolchain).bind fun toolchain =>
          (Toml.orDefault logging? {} logging).bind fun logging =>
            some ⟨workspace, server, build, toolchain, logging⟩) = some c
  rw [placed, served, built, run, logged]
  rfl

theorem ofToml?_sections :
    ofToml? (.table (c.sections.map fun s => (s.name, .table s.entries))) = some c := by
  have grouped : Toml.group? ["workspace", "server", "build", "toolchain", "logging"]
      (.table (c.sections.map fun s => (s.name, .table s.entries))) =
        some (c.sections.map fun s => some (.table s.entries)) := by
    simp [Toml.group?, sections, List.lookup_cons]
  exact c.ofToml?_of_group _ _ _ _ _ _ grouped
    (Toml.orDefault_of_read _ (workspace?_written c.workspace))
    (Toml.orDefault_of_read _ (server?_written c.server))
    (Toml.orDefault_of_read _ (build?_written c.build))
    (Toml.orDefault_of_read _ (toolchain?_written c.toolchain))
    (Toml.orDefault_of_read _ (logging?_written c.logging))

/-- Nothing of a configuration is lost by writing it down. -/
theorem parse_render : parse c.render = .ok c := by
  have read := Toml.parse?_render c.sections c.sections_plain c.sections_distinct.1
    c.sections_distinct.2
  rw [parse, render, read, Option.bind_some, ofToml?_sections]

end Config

end Workbench
