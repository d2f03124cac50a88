import CommandBus.Cache
import CommandBus.Chunk.Client
import CommandBus.Toml.Reader

namespace CommandBus

structure Config where
  cache : Cache.Config := {}
  chunking : ChunkingOptions := {}
  /-- For invocations that set no timeout of their own. -/
  defaultTimeout : Duration := .ofSecs 10
  deriving Inhabited

inductive ConfigError
  | unreadable (path : String)
  /-- What was read is no config. -/
  | malformed (path : String)
  deriving DecidableEq, Inhabited, Repr

def ConfigError.message : ConfigError → String
  | .unreadable path => "error reading from " ++ path
  | .malformed path => "error parsing config from " ++ path

namespace Config

/-- The values of a section's keys, in the order of the keys. A section may also be an array of its
values in that order, and a date counts as a table without any key. -/
def section? (keys : List String) : Option Toml → Option (List (Option Toml))
  | none | some .date => some (keys.map fun _ => none)
  | some (.table _ entries) => some (keys.map fun key => entries.lookup key)
  | some (.array elements) => some ((List.range keys.length).map (elements[·]?))
  | some (.tables elements) =>
    some ((List.range keys.length).map fun i => elements[i]?.map (.table .header))
  | _ => none

def natural? (bound default : Nat) : Option Toml → Option Nat
  | none => some default
  | some (.integer n) => if 0 ≤ n ∧ n < bound then some n.toNat else none
  | _ => none

def boolean? (default : Bool) : Option Toml → Option Bool
  | none => some default
  | some (.boolean b) => some b
  | _ => none

def algorithmNamed? : String → Option ChecksumAlgorithm
  | "md5" => some .md5
  | "sha256" => some .sha256
  | _ => none

/-- The name of an algorithm, or a table with the name as its one key and nothing in it. -/
def algorithm? (default : ChecksumAlgorithm) : Option Toml → Option ChecksumAlgorithm
  | none => some default
  | some (.text name) => algorithmNamed? name
  | some (.table _ [(name, .table _ [])]) => algorithmNamed? name
  | some (.table _ [(name, .array [])]) => algorithmNamed? name
  | _ => none

def cache? (part : Option Toml) : Option Cache.Config := do
  let d : Cache.Config := {}
  match ← section? ["max-entry-count", "max-aggregate-payload-bytes", "unit-storage-overhead-bytes",
      "fixed-processing-overhead-millis"] part with
  | [entries, bytes, unit, fixed] =>
    return {
      maxEntries := ← natural? UInt64.size d.maxEntries entries
      maxBytes := ← natural? UInt64.size d.maxBytes bytes
      unitBytes := ← natural? UInt64.size d.unitBytes unit
      fixedMillis := ← natural? UInt64.size d.fixedMillis fixed }
  | _ => none

def chunking? (part : Option Toml) : Option ChunkingOptions := do
  let d : ChunkingOptions := {}
  match ← section? ["enabled", "static-overhead", "reassembly-timeout-secs", "sweep-interval-secs",
      "checksum-algorithm"] part with
  | [enabled, overhead, timeout, sweep, algorithm] =>
    return {
      enabled := ← boolean? d.enabled enabled
      overhead := ← natural? UInt32.size d.overhead overhead
      timeoutSecs := ← natural? UInt64.size d.timeoutSecs timeout
      sweepSecs := ← natural? UInt64.size d.sweepSecs sweep
      algorithm := ← algorithm? d.algorithm algorithm }
  | _ => none

def defaultTimeout? (part : Option Toml) : Option Duration := do
  match ← section? ["default-timeout-secs"] part with
  | [secs] => (natural? UInt64.size 10 secs).map .ofSecs
  | _ => none

def ofEntries? (entries : Toml.Entries) : Option Config :=
  return {
    cache := ← cache? (entries.lookup "cache")
    chunking := ← chunking? (entries.lookup "chunking")
    defaultTimeout := ← defaultTimeout? (entries.lookup "invoker") }

/-- A dash stands for standard input, also where slashes and dots follow that lead nowhere else. -/
def isInput (path : String) : Bool :=
  match Text.pieces (· == '/') path.toList with
  | name :: rest => name == ['-'] && rest.all fun step => step == [] || step == ['.']
  | [] => false

/-- The config in a file of this path, where `content` is what could be read from it. -/
def read (path : String) (content : Option String) : Except ConfigError Config :=
  match content with
  | none => .error (.unreadable (if isInput path then "stdin" else path))
  | some text =>
    match (Toml.parse? text).bind ofEntries? with
    | some config => .ok config
    | none => .error (.malformed path)

end Config

end CommandBus
