import SqlTree.Toml.Reader
import SqlTree.Toml.Text

/-!
# Configuration

The settings of logging and of rewriting, kept in a TOML document of two sections. What the document
does not set has a default; what it sets beside the known settings is passed over. A configuration
is valid if rewriting may descend at all and the log has a name.
-/

namespace SqlTree

/-- The settings of logging. -/
structure LogConfig where
  level : String
  /-- Where log files go; if empty, nothing is written to files. -/
  dir : String
  file : String
  maxFileSize : UInt64
  maxFiles : UInt64
  traceRewrites : Bool
deriving DecidableEq, Repr

/-- The settings of rewriting. -/
structure RewriteConfig where
  maxDepth : UInt64
deriving DecidableEq, Repr

/-- All settings. -/
structure Config where
  log : LogConfig
  rewrite : RewriteConfig
deriving DecidableEq, Repr

/-- Why a configuration cannot be had. -/
inductive ConfigError where
  /-- There is no document. -/
  | missing
  | malformed
  | zeroDepth
  | emptyFile
deriving DecidableEq, Repr

/-- The message of an invalid configuration. -/
def ConfigError.message? : ConfigError → Option String
  | zeroDepth => some "配置无效: rewrite.max_depth 必须大于 0"
  | emptyFile => some "配置无效: log.file 不能为空"
  | _ => none

def LogConfig.default : LogConfig where
  level := "info"
  dir := "logs"
  file := "streamsql"
  maxFileSize := 100 * 1024 * 1024
  maxFiles := 5
  traceRewrites := false

def RewriteConfig.default : RewriteConfig := ⟨256⟩

/-- The keys of the settings, in the order in which an array gives their values. -/
def LogConfig.keys : List String :=
  ["level", "dir", "file", "max_file_size", "max_files", "trace_rewrites"]

def RewriteConfig.keys : List String := ["max_depth"]

namespace Config

def default : Config := ⟨.default, .default⟩

/-- The first rule that the configuration breaks. -/
def validate (c : Config) : Except ConfigError Unit :=
  if c.rewrite.maxDepth = 0 then .error .zeroDepth
  else if c.log.file = "" then .error .emptyFile
  else .ok ()

/-! ## Reading -/

/-- A setting of a section, or its default. -/
def setting {α : Type} (entries : Toml.Entries) (key : String) (default : α)
    (read : Toml → Option α) : Option α :=
  match entries.lookup key with
  | none => some default
  | some v => read v

def readString : Toml → Option String
  | .string s => some s
  | _ => none

def readBool : Toml → Option Bool
  | .boolean b => some b
  | _ => none

def readUInt64 : Toml → Option UInt64
  | .integer i => if 0 ≤ i ∧ i.toNat < UInt64.size then some (UInt64.ofNat i.toNat) else none
  | _ => none

/-- The settings of a section with these keys. A moment counts as a section that sets nothing, an
array as one whose items are the values of the first keys; more items than keys are passed over. -/
def readSection (keys : List String) : Toml → Option Toml.Entries
  | .table _ entries => some entries
  | .array items => some (keys.zip items)
  | .moment => some []
  | _ => none

def readLog (v : Toml) : Option LogConfig := do
  let entries ← readSection LogConfig.keys v
  let d := LogConfig.default
  return {
    level := ← setting entries "level" d.level readString
    dir := ← setting entries "dir" d.dir readString
    file := ← setting entries "file" d.file readString
    maxFileSize := ← setting entries "max_file_size" d.maxFileSize readUInt64
    maxFiles := ← setting entries "max_files" d.maxFiles readUInt64
    traceRewrites := ← setting entries "trace_rewrites" d.traceRewrites readBool }

def readRewrite (v : Toml) : Option RewriteConfig := do
  let entries ← readSection RewriteConfig.keys v
  return ⟨← setting entries "max_depth" RewriteConfig.default.maxDepth readUInt64⟩

/-- The configuration that a document holds, valid or not. -/
def ofText? (text : String) : Option Config := do
  let entries ← Toml.read? text
  let log ← setting entries "log" .default readLog
  return ⟨log, ← setting entries "rewrite" .default readRewrite⟩

/-- The valid configuration that a document holds. -/
def load (text? : Option String) : Except ConfigError Config :=
  match text? with
  | none => .error .missing
  | some text =>
    match ofText? text with
    | none => .error .malformed
    | some c => c.validate.map fun _ => c

/-! ## Writing -/

def boolText (b : Bool) : String := if b then "true" else "false"

/-- A line that sets a key. -/
def settingText (key value : String) : String := key ++ " = " ++ value ++ "\n"

/-- The document that a configuration is saved as, valid or not. -/
def text (c : Config) : String :=
  "[log]\n" ++ settingText "level" (Toml.stringText c.log.level) ++
    settingText "dir" (Toml.stringText c.log.dir) ++
    settingText "file" (Toml.stringText c.log.file) ++
    settingText "max_file_size" (toString c.log.maxFileSize.toNat) ++
    settingText "max_files" (toString c.log.maxFiles.toNat) ++
    settingText "trace_rewrites" (boolText c.log.traceRewrites) ++
    "\n[rewrite]\n" ++ settingText "max_depth" (toString c.rewrite.maxDepth.toNat)

end Config

/-- What is logged: everything from a level on, and in rewriting, if wanted, all there is. -/
def LogConfig.spec (c : LogConfig) : String :=
  if c.traceRewrites then c.level ++ ", streamsql::query::visitor=trace" else c.level

end SqlTree
