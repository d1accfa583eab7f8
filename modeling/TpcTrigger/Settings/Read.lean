import TpcTrigger.Files.Directory
import TpcTrigger.Settings.Check
import TpcTrigger.Yaml.Document

/-! # Settings from text

A settings file is a YAML mapping from names to values.  Options that are missing keep their
usual values, unknown ones are passed over, and none may be given twice.  Numbers are plain
scalars; the others may be quoted.
-/

namespace TpcTrigger

open Yaml

namespace Yaml.Node

/-- The text of a scalar that may be a number: a plain one, or a literal block with the tag of
its kind. -/
def numeral? (kind : String) : Node → Option (List Char)
  | scalar _ .plain text => some text.toList
  | scalar (some tag) .literal text =>
    if tag = .core kind then some text.toList else none
  | _ => none

/-- Whether digits with a zero in front are no number. -/
def hasPadding (digits : List Char) : Bool :=
  match digits with
  | '0' :: rest => !rest.isEmpty && rest.all Numeral.isDigit
  | _ => false

/-- A whole number without a sign: decimal, or to base sixteen, eight or two. -/
def unsigned? : List Char → Option Nat
  | '0' :: 'x' :: digits => Numeral.ofBase? 16 digits
  | '0' :: 'o' :: digits => Numeral.ofBase? 8 digits
  | '0' :: 'b' :: digits => Numeral.ofBase? 2 digits
  | digits => if hasPadding digits then none else Numeral.ofBase? 10 digits

def dropPlus : List Char → List Char
  | '+' :: rest => rest
  | text => text

def nat? (limit : Nat) (n : Node) : Option Nat := do
  let value ← unsigned? (dropPlus (← n.numeral? "int"))
  if value ≤ limit then some value else none

def word? (n : Node) : Option Int := do
  let value : Int ← match ← n.numeral? "int" with
    | '-' :: digits => (unsigned? digits).map fun m => -(m : Int)
    | text => (unsigned? (dropPlus text)).map Int.ofNat
  if minWord ≤ value ∧ value ≤ maxWord then some value else none

/-- A floating-point number: a decimal numeral of a finite number, or one of the names of the
others. -/
def float? (n : Node) : Option Float := do
  let text ← n.numeral? "float"
  let unsigned := dropPlus text
  let name := String.ofList text
  if [".inf", ".Inf", ".INF"].contains (String.ofList unsigned) then return 1.0 / 0.0
  else if ["-.inf", "-.Inf", "-.INF"].contains name then return -1.0 / 0.0
  else if [".nan", ".NaN", ".NAN"].contains name then return 0.0 / 0.0
  else if unsigned.length < text.length && unsigned.head? == some '+' then none
  else if unsigned.length < text.length && unsigned.head? == some '-' then none
  else
    let x ← Numeral.float? unsigned
    if x.isFinite then return x else none

/-- What may be absent: reads nothing, or else something. -/
def optional? {α : Type} (read : Node → Option α) (n : Node) : Option (Option α) :=
  match n with
  | scalar tag .plain text =>
    let isNull := nullTexts.contains text
    if tag = some (.core "null") then if isNull then some none else none
    else if tag.isNone && (text.isEmpty || isNull) then some none
    else (read n).map some
  | n => (read n).map some

/-- A variant: its name, and the node that holds its parts if the name is a tag. -/
structure Variant where
  name : String
  content : Option Node

/-- A variant is named by its tag, or by the text of a scalar that has none. -/
def variant? (n : Node) : Option Variant :=
  match n with
  | scalar tag style text =>
    match tag.bind Tag.ownName? with
    | some name => some ⟨name, some (.scalar none style text)⟩
    | none => some ⟨text, none⟩
  | sequence tag _ | mapping tag _ => (tag.bind Tag.ownName?).map (⟨·, some n⟩)
  | aliasOf _ => none

def Variant.isUnit (v : Variant) : Bool :=
  match v.content with
  | none => true
  | some (scalar _ .plain text) => text.isEmpty || nullTexts.contains text
  | some _ => false

end Yaml.Node

def onlyValue? (entries : List (String × Node)) (key : String) : Option Node :=
  match entries.filter (·.1 = key) with
  | [(_, value)] => some value
  | _ => none

def SubmitPolicy.ofNode? (d : Document) (n : Node) : Option SubmitPolicy := do
  let v ← n.variant?
  match v.name with
  | "FailFast" => if v.isUnit then some .failFast else none
  | "Block" =>
    let timeout ← onlyValue? (← d.entries? (← v.content)) "timeout_ms"
    return .block (← timeout.nat? (UInt64.size - 1))
  | _ => none

def KernelKind.ofNode? (n : Node) : Option KernelKind := do
  let v ← n.variant?
  if !v.isUnit then none
  else
    match v.name with
    | "Scalar" => some .channelwise
    | "Vector" => some .lockstep
    | _ => none

namespace Settings

def optionReader? (d : Document) (name : String) : Option (Settings → Node → Option Settings) :=
  let count (set : Settings → Nat → Settings) : Option (Settings → Node → Option Settings) :=
    some fun s n => (n.nat? (UInt64.size - 1)).map (set s)
  match name with
  | "window_size_in_frames" => count fun s windowTicks => { s with windowTicks }
  | "n_workers" => count fun s workers => { s with workers }
  | "queue_capacity" => count fun s queueCapacity => { s with queueCapacity }
  | "worker_queue_depth" => count fun s workerQueueDepth => { s with workerQueueDepth }
  | "fir_tap_count" => count fun s tapCount => { s with tapCount }
  | "tap_exponent" =>
    some fun s n => (n.nat? (UInt32.size - 1)).map fun tapExponent => { s with tapExponent }
  | "fir_cutoff" => some fun s n => n.float?.map fun cutoff => { s with cutoff }
  | "fir_taps" => some fun s n => do
    let taps ← n.optional? fun list => do (← d.items? list).mapM Node.word?
    return { s with taps := taps.map List.toArray }
  | "threshold_factor" =>
    some fun s n => n.word?.map fun thresholdFactor => { s with thresholdFactor }
  | "frugal_step_limit" => some fun s n => n.word?.map fun stepLimit => { s with stepLimit }
  | "hit_store_capacity" => count fun s storeCapacity => { s with storeCapacity }
  | "readout_window_radius" => count fun s readoutRadius => { s with readoutRadius }
  | "max_queue_latency_ms" => count fun s maxLatencyMs => { s with maxLatencyMs }
  | "submit_policy" =>
    some fun s n => (SubmitPolicy.ofNode? d n).map fun submitPolicy => { s with submitPolicy }
  | "kernel" => some fun s n => (KernelKind.ofNode? n).map fun kernel => { s with kernel }
  | _ => none

def ofEntries? (d : Document) (entries : List (String × Node)) : Option Settings :=
  go [] {} entries
where
  /-- Reads on with the settings so far, which come from the options in `seen`. -/
  go (seen : List String) (s : Settings) : List (String × Node) → Option Settings
    | [] => some s
    | (name, value) :: rest => do
      match optionReader? d name with
      | none => go seen s rest
      | some read => if seen.contains name then none else go (name :: seen) (← read s value) rest

def parse? (text : List Char) : Option Settings := do
  let d ← Document.ofText? text
  match d.root with
  | none => some {}
  | some root => ofEntries? d (← d.entries? root)

def ofText (text : String) : Except SettingsError Settings :=
  match parse? text.toList with
  | none => .error .badDocument
  | some s => s.check.map fun () => s

def ofBytes (bytes : ByteArray) : Except SettingsError Settings :=
  match String.fromUTF8? bytes with
  | none => .error (.fileTrouble .notText)
  | some text => ofText text

def ofFound (path : String) : Found → Except SettingsError Settings
  | .nothing => .error (.missingFile path)
  | .unreadable cause => .error (.fileTrouble cause)
  | .file bytes => ofBytes bytes

end Settings

end TpcTrigger
