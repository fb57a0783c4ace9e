import SqlTree.Config
import SqlTree.Proofs.Except
import SqlTree.Proofs.Toml.Documents

/-!
# Saved configurations

A configuration is loaded from the document that it is saved as, whatever its texts and numbers are.
Settings and sections that are taken out of the document have their defaults then, and the others
are as they were. A configuration that breaks a rule can be saved as well; loading it tells the
first rule that it breaks.
-/

namespace SqlTree

open Toml

/-! ## The document as lines -/

def LogConfig.name : BareKey := ⟨"log", by decide, by decide⟩

def LogConfig.settings (c : LogConfig) : List (BareKey × Scalar) :=
  [(⟨"level", by decide, by decide⟩, .string c.level),
    (⟨"dir", by decide, by decide⟩, .string c.dir),
    (⟨"file", by decide, by decide⟩, .string c.file),
    (⟨"max_file_size", by decide, by decide⟩, .number c.maxFileSize),
    (⟨"max_files", by decide, by decide⟩, .number c.maxFiles),
    (⟨"trace_rewrites", by decide, by decide⟩, .boolean c.traceRewrites)]

/-- The settings with the defaults of those that are not kept. -/
def LogConfig.reset (c : LogConfig) (kept : String → Bool) : LogConfig where
  level := if kept "level" then c.level else default.level
  dir := if kept "dir" then c.dir else default.dir
  file := if kept "file" then c.file else default.file
  maxFileSize := if kept "max_file_size" then c.maxFileSize else default.maxFileSize
  maxFiles := if kept "max_files" then c.maxFiles else default.maxFiles
  traceRewrites := if kept "trace_rewrites" then c.traceRewrites else default.traceRewrites

def RewriteConfig.name : BareKey := ⟨"rewrite", by decide, by decide⟩

def RewriteConfig.settings (c : RewriteConfig) : List (BareKey × Scalar) :=
  [(⟨"max_depth", by decide, by decide⟩, .number c.maxDepth)]

/-- The settings with the defaults of those that are not kept. -/
def RewriteConfig.reset (c : RewriteConfig) (kept : String → Bool) : RewriteConfig where
  maxDepth := if kept "max_depth" then c.maxDepth else default.maxDepth

/-- What is left of a document from which settings and sections were taken. -/
structure Remains where
  /-- Is the section of this name still there? -/
  sections : String → Bool
  /-- Is the setting with this key still in the section of this name, if that is there? -/
  settings : String → String → Bool

namespace Remains

/-- Nothing was taken. -/
def all : Remains := ⟨fun _ => true, fun _ _ => true⟩

/-- Is the setting with this key still there, and so its section? -/
def keeps (r : Remains) (name key : String) : Bool := r.sections name && r.settings name key

/-- The settings of a section that are left, if it is there. -/
def settingsOf (r : Remains) (name : BareKey) (settings : List (BareKey × Scalar)) :
    List (BareKey × Scalar) :=
  settings.filter fun s => r.settings name.text s.1.text

/-- The lines of a section that are left. -/
def linesOf (r : Remains) (name : BareKey) (settings : List (BareKey × Scalar)) : List Line :=
  if r.sections name.text then sectionLines name (r.settingsOf name settings) else []

/-- The entries that the lines make. -/
def entriesOf (r : Remains) (name : BareKey) (settings : List (BareKey × Scalar)) : Entries :=
  if r.sections name.text then
    [(name.text, .table .headed (Toml.entriesOf (r.settingsOf name settings)))]
  else []

end Remains

namespace Config

/-- The lines that a configuration is saved as. -/
def lines (c : Config) : List Line :=
  sectionLines LogConfig.name c.log.settings ++
    .empty :: sectionLines RewriteConfig.name c.rewrite.settings

/-- The lines that are left of a configuration, without empty ones. -/
def linesLeft (c : Config) (r : Remains) : List Line :=
  r.linesOf LogConfig.name c.log.settings ++ r.linesOf RewriteConfig.name c.rewrite.settings

/-- The configuration with the defaults of what was taken. -/
def reset (c : Config) (r : Remains) : Config :=
  ⟨c.log.reset (r.keeps "log"), c.rewrite.reset (r.keeps "rewrite")⟩

theorem documentText_lines (c : Config) : Line.documentText c.lines = c.text := by
  apply String.toList_inj.mp
  simp [Line.documentText, lines, sectionLines, LogConfig.settings, RewriteConfig.settings,
    Line.text, Scalar.text, LogConfig.name, RewriteConfig.name, text,
    settingText, boolText]

theorem filter_lines (c : Config) : c.lines.filter (fun l => !l.isEmpty) = c.linesLeft .all := rfl

/-! ## What is read -/

theorem foldlM_linesOf (r : Remains) {name : BareKey} {others : Entries}
    (new : others.lookup name.text = none) {settings : List (BareKey × Scalar)}
    (unique : (settings.map fun s => s.1.text).Nodup) (header : List String) :
    ∃ header', (r.linesOf name settings).foldlM Line.enter ⟨others, header⟩ =
      some ⟨others ++ r.entriesOf name settings, header'⟩ := by
  unfold Remains.linesOf Remains.entriesOf
  split
  case isTrue =>
    have fewer : ((r.settingsOf name settings).map fun s => s.1.text).Nodup :=
      unique.sublist (List.filter_sublist.map _)
    exact ⟨[name.text], foldlM_sectionLines header new fewer⟩
  case isFalse =>
    rw [List.append_nil]
    exact ⟨header, rfl⟩

theorem lookup_entriesOf (r : Remains) (name : BareKey) (settings : List (BareKey × Scalar))
    (key : String) : (r.entriesOf name settings).lookup key =
      if r.sections key ∧ key = name.text then
        some (.table .headed (Toml.entriesOf (r.settingsOf name settings)))
      else none := by
  unfold Remains.entriesOf
  by_cases same : key = name.text
  · subst same
    by_cases there : r.sections name.text = true
    · simp [there]
    · simp [there]
  · by_cases there : r.sections name.text = true
    · simp [there, same, lookup_cons_eq]
    · simp [there, same]

theorem lookup_other (r : Remains) {name : BareKey} (settings : List (BareKey × Scalar))
    {key : String} (other : key ≠ name.text) : (r.entriesOf name settings).lookup key = none := by
  rw [lookup_entriesOf, if_neg fun h => other h.2]

/-- The entries of a document that has, apart from empty lines, what is left of a configuration. -/
def entriesLeft (c : Config) (r : Remains) : Entries :=
  r.entriesOf LogConfig.name c.log.settings ++ r.entriesOf RewriteConfig.name c.rewrite.settings

theorem read?_documentText {c : Config} {r : Remains} {ls : List Line}
    (left : ls.filter (fun l => !l.isEmpty) = c.linesLeft r) :
    read? (Line.documentText ls) = some (c.entriesLeft r) := by
  have logKeys : (c.log.settings.map fun s => s.1.text).Nodup := by
    show LogConfig.keys.Nodup
    decide
  have rewriteKeys : (c.rewrite.settings.map fun s => s.1.text).Nodup := by
    show RewriteConfig.keys.Nodup
    decide
  have new : (r.entriesOf LogConfig.name c.log.settings).lookup RewriteConfig.name.text = none :=
    lookup_other r _ (by decide)
  have start : ([] : Entries).lookup LogConfig.name.text = none := rfl
  obtain ⟨first, log⟩ := foldlM_linesOf r start logKeys []
  obtain ⟨second, rewrite⟩ := foldlM_linesOf r new rewriteKeys first
  rw [Line.read?_documentText, ← Line.foldlM_enter_filter, left, linesLeft, List.foldlM_append, log]
  show Option.map _ (List.foldlM _ _ _) = _
  rw [List.nil_append, rewrite]
  rfl

/-- A setting that was taken has its default, and another one its value. -/
theorem setting_settingsOf {α : Type} {settings : List (BareKey × Scalar)} {key : String}
    {v : Toml} (found : (Toml.entriesOf settings).lookup key = some v) {read : Toml → Option α}
    {value : α} (reads : read v = some value) (default : α) (r : Remains) (name : BareKey) :
    setting (Toml.entriesOf (r.settingsOf name settings)) key default read =
      some (if r.settings name.text key then value else default) := by
  have kept : Toml.entriesOf (r.settingsOf name settings) =
      (Toml.entriesOf settings).filter fun e => r.settings name.text e.1 := by
    rw [Toml.entriesOf, Toml.entriesOf, List.filter_map]
    rfl
  rw [setting, kept, lookup_filter]
  by_cases there : r.settings name.text key = true
  · rw [if_pos there, if_pos there, found]
    exact reads
  · rw [if_neg there, if_neg there]

theorem readUInt64_toNat (n : UInt64) : readUInt64 (.integer n.toNat) = some n := by
  have inRange : 0 ≤ (n.toNat : Int) ∧ (n.toNat : Int).toNat < UInt64.size :=
    ⟨Int.natCast_nonneg _, n.toNat_lt⟩
  rw [readUInt64, if_pos inRange, Int.toNat_natCast, UInt64.ofNat_toNat]

theorem readLog_settingsOf (c : LogConfig) (r : Remains) :
    readLog (.table .headed (Toml.entriesOf (r.settingsOf LogConfig.name c.settings))) =
      some (c.reset (r.settings "log")) := by
  let all := Toml.entriesOf c.settings
  have read {α : Type} {key : String} {v : Toml} (found : all.lookup key = some v)
      {read : Toml → Option α} {value : α} (reads : read v = some value) (default : α) :
      setting (Toml.entriesOf (r.settingsOf LogConfig.name c.settings)) key default read =
        some (if r.settings "log" key then value else default) :=
    setting_settingsOf found reads default r LogConfig.name
  simp only [readLog, readSection, Option.bind_eq_bind, Option.bind_some,
    read (rfl : all.lookup "level" = _) (rfl : readString _ = _),
    read (rfl : all.lookup "dir" = _) (rfl : readString _ = _),
    read (rfl : all.lookup "file" = _) (rfl : readString _ = _),
    read (rfl : all.lookup "max_file_size" = _) (readUInt64_toNat _),
    read (rfl : all.lookup "max_files" = _) (readUInt64_toNat _),
    read (rfl : all.lookup "trace_rewrites" = _) (rfl : readBool _ = _)]
  rfl

theorem readRewrite_settingsOf (c : RewriteConfig) (r : Remains) :
    readRewrite (.table .headed (Toml.entriesOf (r.settingsOf RewriteConfig.name c.settings))) =
      some (c.reset (r.settings "rewrite")) := by
  have depth := setting_settingsOf (rfl : (Toml.entriesOf c.settings).lookup "max_depth" = _)
    (readUInt64_toNat _) RewriteConfig.default.maxDepth r RewriteConfig.name
  simp only [readRewrite, readSection, Option.bind_eq_bind, Option.bind_some, depth]
  rfl

/-- A section that was taken has all its defaults, and another one those of the settings that were
taken from it. -/
theorem setting_section {α : Type} {entries : Entries} {r : Remains} {name : BareKey}
    {settings : List (BareKey × Scalar)}
    (found : entries.lookup name.text = (r.entriesOf name settings).lookup name.text)
    {read : Toml → Option α} {reset : (String → Bool) → α}
    (reads : read (.table .headed (Toml.entriesOf (r.settingsOf name settings))) =
      some (reset (r.settings name.text))) :
    setting entries name.text (reset fun _ => false) read = some (reset (r.keeps name.text)) := by
  rw [setting, found, lookup_entriesOf]
  cases there : r.sections name.text with
  | true =>
    have kept : r.keeps name.text = r.settings name.text := by
      funext key
      rw [Remains.keeps, there, Bool.true_and]
    rw [if_pos ⟨rfl, rfl⟩, kept]
    exact reads
  | false =>
    have kept : r.keeps name.text = fun _ => false := by
      funext key
      rw [Remains.keeps, there, Bool.false_and]
    rw [if_neg fun h => Bool.noConfusion h.1, kept]

theorem setting_log (c : Config) (r : Remains) :
    setting (c.entriesLeft r) "log" LogConfig.default readLog = some (c.reset r).log := by
  have other : (r.entriesOf RewriteConfig.name c.rewrite.settings).lookup LogConfig.name.text =
      none := lookup_other r _ (by decide)
  have found : (c.entriesLeft r).lookup LogConfig.name.text =
      (r.entriesOf LogConfig.name c.log.settings).lookup LogConfig.name.text := by
    rw [entriesLeft, List.lookup_append, other, Option.or_none]
  exact setting_section found (readLog_settingsOf c.log r)

theorem setting_rewrite (c : Config) (r : Remains) :
    setting (c.entriesLeft r) "rewrite" RewriteConfig.default readRewrite =
      some (c.reset r).rewrite := by
  have other : (r.entriesOf LogConfig.name c.log.settings).lookup RewriteConfig.name.text =
      none := lookup_other r _ (by decide)
  have found : (c.entriesLeft r).lookup RewriteConfig.name.text =
      (r.entriesOf RewriteConfig.name c.rewrite.settings).lookup RewriteConfig.name.text := by
    rw [entriesLeft, List.lookup_append, other, Option.none_or]
  exact setting_section found (readRewrite_settingsOf c.rewrite r)

/-- From what is left of the document of a configuration, with empty lines anywhere, the
configuration is read with the defaults of what was taken. -/
theorem ofText?_documentText {c : Config} {r : Remains} {ls : List Line}
    (left : ls.filter (fun l => !l.isEmpty) = c.linesLeft r) :
    ofText? (Line.documentText ls) = some (c.reset r) := by
  rw [ofText?, read?_documentText left]
  show (do
    let log ← setting (c.entriesLeft r) "log" LogConfig.default readLog
    return (⟨log, ← setting (c.entriesLeft r) "rewrite" RewriteConfig.default readRewrite⟩ :
      Config)) = _
  rw [setting_log, setting_rewrite]
  rfl

/-! ## What is loaded -/

theorem load_of_ofText? {text : String} {c : Config} (h : ofText? text = some c) :
    load (some text) = c.validate.map fun _ => c := by
  simp only [load, h]

theorem validate_eq_ok {c : Config} :
    c.validate = .ok () ↔ c.rewrite.maxDepth ≠ 0 ∧ c.log.file ≠ "" := by
  unfold validate
  by_cases depth : c.rewrite.maxDepth = 0
  · simp [depth]
  · by_cases file : c.log.file = "" <;> simp [depth, file]

/-- The defaults break no rule, wherever they come in. -/
theorem validate_reset {c : Config} (h : c.validate = .ok ()) (r : Remains) :
    (c.reset r).validate = .ok () := by
  obtain ⟨depth, file⟩ := validate_eq_ok.mp h
  refine validate_eq_ok.mpr ⟨?_, ?_⟩
  · show (if r.keeps "rewrite" "max_depth" then c.rewrite.maxDepth else 256) ≠ 0
    split
    · exact depth
    · decide
  · show (if r.keeps "log" "file" then c.log.file else "streamsql") ≠ ""
    split
    · exact file
    · decide

/-- A configuration is loaded from the document that it is saved as, unless it breaks a rule: then
the first rule that it breaks is told. Of a valid configuration any settings and sections may be
taken out of the document: what is left of its lines, with empty lines anywhere, gives the
configuration with the defaults of exactly what was taken. -/
theorem load_text (c : Config) :
    Line.documentText c.lines = c.text ∧
    (c.rewrite.maxDepth = 0 → load (some c.text) = .error .zeroDepth) ∧
    (c.rewrite.maxDepth ≠ 0 → c.log.file = "" → load (some c.text) = .error .emptyFile) ∧
    (c.rewrite.maxDepth ≠ 0 → c.log.file ≠ "" → load (some c.text) = .ok c ∧
      ∀ (r : Remains) (ls : List Line), ls.filter (fun l => !l.isEmpty) = c.linesLeft r →
        load (some (Line.documentText ls)) = .ok (c.reset r)) := by
  have text := documentText_lines c
  have whole : load (some c.text) = c.validate.map fun _ => c :=
    text ▸ load_of_ofText? (ofText?_documentText c.filter_lines)
  refine ⟨text, fun zero => ?_, fun depth none => ?_, fun depth file => ?_⟩
  · rw [whole, validate, if_pos zero]
    rfl
  · rw [whole, validate, if_neg depth, if_pos none]
    rfl
  · have valid := validate_eq_ok.mpr ⟨depth, file⟩
    constructor
    · rw [whole, valid]
      rfl
    · intro r ls left
      rw [load_of_ofText? (ofText?_documentText left), validate_reset valid]
      rfl

/-- Texts with quotes of both kinds, backslashes, line ends and control characters, and the largest
number, without the name of the log and the other section; and what breaks both rules or one. -/
theorem load_text_unusual :
    let c : Config := ⟨⟨"'''\"\\n\n\x7f", "a\"\"\"b'\n", "\t'", 18446744073709551615, 0, true⟩, ⟨1⟩⟩
    let r : Remains := ⟨fun name => name == "log", fun _ key => key != "file"⟩
    let ls : List Line := .empty :: c.linesLeft r ++ [.empty]
    let nameless : Config := ⟨{ c.log with file := "" }, ⟨1⟩⟩
    let broken : Config := ⟨{ c.log with file := "" }, ⟨0⟩⟩
    (c.rewrite.maxDepth ≠ 0 ∧ c.log.file ≠ "" ∧ load (some c.text) = .ok c) ∧
      (ls.filter (fun l => !l.isEmpty) = c.linesLeft r ∧
        load (some (Line.documentText ls)) = .ok ⟨{ c.log with file := "streamsql" }, ⟨256⟩⟩) ∧
      (nameless.rewrite.maxDepth ≠ 0 ∧ nameless.log.file = "" ∧
        load (some nameless.text) = .error .emptyFile) ∧
      (broken.rewrite.maxDepth = 0 ∧ load (some broken.text) = .error .zeroDepth) := by
  intro c r ls nameless broken
  have depth : c.rewrite.maxDepth ≠ 0 := by decide
  have file : c.log.file ≠ "" := by decide
  obtain ⟨loaded, left⟩ := (load_text c).2.2.2 depth file
  refine ⟨⟨depth, file, loaded⟩, ⟨rfl, left r ls rfl⟩, ?_, ?_⟩
  · exact ⟨depth, rfl, (load_text nameless).2.2.1 depth rfl⟩
  · exact ⟨rfl, (load_text broken).2.1 rfl⟩

end Config

end SqlTree
