import AccessHistory.Config
import AccessHistory.Json.Printer
import AccessHistory.Json.Reader

/-!
Configs as JSON documents. One table of fields serves both directions: an object may give any of
them in any order, an array gives the first few in the order of the table, and what is not given
keeps its default. The ticker is no field, so a config that was read reads the wall clock.
-/

set_option autoImplicit false
set_option relaxedAutoImplicit false

namespace AccessHistory

open Json (Value)

/-- The kind that a document names: by its word, or by an object that gives its word null. -/
def CounterKind.ofJson? (v : Value) : Option CounterKind :=
  let named := fun (text : Json.Text) =>
    if text = some sketch.word then some CounterKind.sketch
    else if text = some filter.word then some CounterKind.filter
    else none
  match v with
  | .string text => named text
  | .object [(key, .null)] => named key
  | _ => none

def CounterKind.toJson (k : CounterKind) : Value := .ofString k.word

namespace Config

/-- The fields of a config that documents hold. -/
inductive Field where
  | bucketCount
  | ticksPerBucket
  | countsAccesses
  | maxOps
  | maxErrorValue
  | certainty
  | maxWidth
  | maxDepth
  | falsePositiveRate
  deriving DecidableEq, Inhabited

namespace Field

def all : List Field :=
  [bucketCount, ticksPerBucket, countsAccesses, maxOps, maxErrorValue, certainty, maxWidth,
    maxDepth, falsePositiveRate]

def name : Field → String
  | bucketCount => "num_buckets"
  | ticksPerBucket => "num_ticks_per_bucket"
  | countsAccesses => "use_counts"
  | maxOps => "max_num_ops_per_bucket"
  | maxErrorValue => "cms_max_error_value"
  | certainty => "cms_error_certainty"
  | maxWidth => "cms_max_width"
  | maxDepth => "cms_max_depth"
  | falsePositiveRate => "bf_false_positive_rate"

def ofName? (s : String) : Option Field := all.find? fun f => f.name == s

def wordOf? : Value → Option UInt64
  | .number n => n.toWord?
  | _ => none

def floatOf? : Value → Option Float
  | .number n => n.toFloat?
  | _ => none

def boolOf? : Value → Option Bool
  | .bool b => some b
  | _ => none

def get (c : Config) : Field → Value
  | bucketCount => .ofNat c.bucketCount.toNat
  | ticksPerBucket => .ofNat c.ticksPerBucket.toNat
  | countsAccesses => .bool c.countsAccesses
  | maxOps => .ofNat c.maxOps.toNat
  | maxErrorValue => .ofNat c.maxErrorValue.toNat
  | certainty => .ofFloat c.certainty
  | maxWidth => .ofNat c.maxWidth.toNat
  | maxDepth => .ofNat c.maxDepth.toNat
  | falsePositiveRate => .ofFloat c.falsePositiveRate

/-- A config with another value in the field, if the value is of the field's type. -/
def set? (c : Config) (f : Field) (v : Value) : Option Config :=
  match f with
  | bucketCount => (wordOf? v).map fun x => { c with bucketCount := x }
  | ticksPerBucket => (wordOf? v).map fun x => { c with ticksPerBucket := x }
  | countsAccesses => (boolOf? v).map fun x => { c with countsAccesses := x }
  | maxOps => (wordOf? v).map fun x => { c with maxOps := x }
  | maxErrorValue => (wordOf? v).map fun x => { c with maxErrorValue := x }
  | certainty => (floatOf? v).map fun x => { c with certainty := x }
  | maxWidth => (wordOf? v).map fun x => { c with maxWidth := x }
  | maxDepth => (wordOf? v).map fun x => { c with maxDepth := x }
  | falsePositiveRate => (floatOf? v).map fun x => { c with falsePositiveRate := x }

end Field

def toJson (c : Config) : Value := .ofMembers (Field.all.map fun f => (f.name, f.get c))

/-- A config under way, and the fields it was given. -/
structure Draft where
  config : Config := {}
  given : List Field := []

/-- Takes one member of an object: its name must be a text; a name that is no field's is passed
over; and no field may come twice. -/
def Draft.takeMember? (d : Draft) (member : Json.Text × Value) : Option Draft :=
  member.1.bind fun key =>
    match Field.ofName? key with
    | none => some d
    | some f =>
      if f ∈ d.given then none
      else (Field.set? d.config f member.2).map fun c => ⟨c, f :: d.given⟩

def ofJson? (v : Value) : Option Config :=
  match v with
  | .object members => (members.foldlM Draft.takeMember? {}).map Draft.config
  | .array items =>
    if items.length ≤ Field.all.length then
      (Field.all.zip items).foldlM (fun c fv => Field.set? c fv.1 fv.2) {}
    else none
  | _ => none

def parse? (text : String) : Option Config := (Value.parse? text).bind ofJson?

end Config

end AccessHistory
