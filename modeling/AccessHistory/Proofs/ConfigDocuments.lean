import AccessHistory.Config.Json
import AccessHistory.Proofs.ShortestDecimals
import AccessHistory.Proofs.WrittenDocuments
import Mathlib

/-!
Configs in documents. A document gives values for some of the fields, in any order or by position;
the config that it describes has these values, its other fields keep their defaults, and nothing else
in the document matters. A config that is written gives all of its fields.
-/

set_option autoImplicit false
set_option relaxedAutoImplicit false

namespace AccessHistory.Config

open Json (Value)
open Number (Binary64)

/-! ### Given values -/

/-- The config whose fields have the values that are given for them, and their defaults otherwise. -/
def ofGiven (given : Field → Option Value) : Config :=
  let plain : Config := {}
  let word := fun (f : Field) (default : UInt64) => ((given f).bind Field.wordOf?).getD default
  let float := fun (f : Field) (default : Float) => ((given f).bind Field.floatOf?).getD default
  { bucketCount := word .bucketCount plain.bucketCount
    ticksPerBucket := word .ticksPerBucket plain.ticksPerBucket
    source := plain.source
    countsAccesses := ((given .countsAccesses).bind Field.boolOf?).getD plain.countsAccesses
    maxOps := word .maxOps plain.maxOps
    maxErrorValue := word .maxErrorValue plain.maxErrorValue
    certainty := float .certainty plain.certainty
    maxWidth := word .maxWidth plain.maxWidth
    maxDepth := word .maxDepth plain.maxDepth
    falsePositiveRate := float .falsePositiveRate plain.falsePositiveRate }

/-- The value is of the field's type: a word, a truth value or a number within the doubles. -/
def Field.Fits (f : Field) (v : Value) : Prop :=
  match f with
  | .countsAccesses => (boolOf? v).isSome
  | .certainty | .falsePositiveRate => (floatOf? v).isSome
  | _ => (wordOf? v).isSome

variable {given : Field → Option Value} {c : Config}

theorem set?_ofGiven (f : Field) (v : Value) : f.set? (ofGiven given) v = some c ↔
    f.Fits v ∧ c = ofGiven (Function.update given f (some v)) := by
  cases f <;>
    simp only [Field.set?, Field.Fits, Option.map_eq_some_iff, Option.isSome_iff_exists] <;>
    constructor
  all_goals first
    | rintro ⟨x, read, rfl⟩
      exact ⟨⟨x, read⟩, by simp [ofGiven, Function.update, read]⟩
    | rintro ⟨⟨x, read⟩, rfl⟩
      exact ⟨x, read, by simp [ofGiven, Function.update, read]⟩

/-- Gives values one after the other. -/
def give (given : Field → Option Value) (pairs : List (Field × Value)) : Field → Option Value :=
  pairs.foldl (fun given pair => Function.update given pair.1 (some pair.2)) given

theorem foldlM_set?_ofGiven (pairs : List (Field × Value)) :
    pairs.foldlM (fun c pair => pair.1.set? c pair.2) (ofGiven given) = some c ↔
      (∀ pair ∈ pairs, pair.1.Fits pair.2) ∧ c = ofGiven (give given pairs) := by
  induction pairs generalizing given with
  | nil => simp [give, eq_comm]
  | cons pair pairs ih =>
    rw [List.foldlM_cons, Option.bind_eq_bind, Option.bind_eq_some_iff, List.forall_mem_cons]
    constructor
    · rintro ⟨next, set, rest⟩
      obtain ⟨fits, rfl⟩ := (set?_ofGiven pair.1 pair.2).mp set
      obtain ⟨others, rfl⟩ := ih.mp rest
      exact ⟨⟨fits, others⟩, rfl⟩
    · rintro ⟨⟨fits, others⟩, rfl⟩
      exact ⟨_, (set?_ofGiven pair.1 pair.2).mpr ⟨fits, rfl⟩, ih.mpr ⟨others, rfl⟩⟩

/-- Where no field is given twice, the order does not matter. -/
theorem give_eq_some_iff {pairs : List (Field × Value)} (once : (pairs.map Prod.fst).Nodup)
    {f : Field} {v : Value} : give given pairs f = some v ↔
      (f, v) ∈ pairs ∨ f ∉ pairs.map Prod.fst ∧ given f = some v := by
  induction pairs generalizing given with
  | nil => simp [give]
  | cons pair pairs ih =>
    rw [List.map_cons, List.nodup_cons] at once
    obtain ⟨new, once⟩ := once
    refine (ih once).trans ?_
    obtain ⟨f', v'⟩ := pair
    by_cases same : f = f'
    · subst same
      have absent : (f, v) ∉ pairs := fun mem => new (List.mem_map.mpr ⟨_, mem, rfl⟩)
      simp [absent, new, eq_comm]
    · simp [same]

/-! ### Objects -/

/-- The members of an object that give a field its value, with the field. -/
def knownMembers (members : List (Json.Text × Value)) : List (Field × Value) :=
  members.filterMap fun member =>
    (member.1.bind Field.ofName?).map fun f => (f, member.2)

theorem ofName?_eq_some_iff {s : String} {f : Field} : Field.ofName? s = some f ↔ s = f.name := by
  constructor
  · intro found
    rw [Field.ofName?, List.find?_eq_some_iff_append] at found
    exact (beq_iff_eq.mp found.1).symm
  · rintro rfl
    cases f <;> rfl

theorem mem_knownMembers_iff {members : List (Json.Text × Value)} {f : Field} {v : Value} :
    (f, v) ∈ knownMembers members ↔ (some f.name, v) ∈ members := by
  simp only [knownMembers, List.mem_filterMap, Option.map_eq_some_iff, Option.bind_eq_some_iff,
    ofName?_eq_some_iff, Prod.mk.injEq]
  constructor
  · rintro ⟨⟨key, v⟩, mem, f, ⟨s, rfl, rfl⟩, rfl, rfl⟩
    exact mem
  · intro mem
    exact ⟨_, mem, f, ⟨_, rfl, rfl⟩, rfl, rfl⟩

theorem knownMembers_of_unknown {s : String} (unknown : Field.ofName? s = none) (v : Value)
    (members : List (Json.Text × Value)) :
    knownMembers ((some s, v) :: members) = knownMembers members := by
  simp [knownMembers, unknown]

theorem knownMembers_of_known {s : String} {f : Field} (known : Field.ofName? s = some f) (v : Value)
    (members : List (Json.Text × Value)) :
    knownMembers ((some s, v) :: members) = (f, v) :: knownMembers members := by
  simp [knownMembers, known]

theorem takeMember?_of_unknown {s : String} (unknown : Field.ofName? s = none) (v : Value)
    (d : Draft) : d.takeMember? (some s, v) = some d := by
  simp [Draft.takeMember?, unknown]

theorem takeMember?_of_known {s : String} {f : Field} (known : Field.ofName? s = some f) (v : Value)
    (d : Draft) : d.takeMember? (some s, v) =
      if f ∈ d.given then none else (f.set? d.config v).map fun c => ⟨c, f :: d.given⟩ := by
  simp [Draft.takeMember?, known]

theorem forall_not_mem_cons_iff {f : Field} {fields given : List Field} :
    (∀ g ∈ fields, g ∉ f :: given) ↔ f ∉ fields ∧ ∀ g ∈ fields, g ∉ given := by
  simp only [List.mem_cons, not_or, forall_and]
  refine and_congr_left fun _ => ⟨fun others mem => others f mem rfl, ?_⟩
  rintro absent g mem rfl
  exact absent mem

/-- Members are taken if their names are texts and no field comes twice; then each known one sets its
field. -/
theorem foldlM_takeMember? (members : List (Json.Text × Value)) (d : Draft) :
    (members.foldlM Draft.takeMember? d).map Draft.config = some c ↔
      (∀ member ∈ members, member.1.isSome) ∧
        (((knownMembers members).map Prod.fst).Nodup ∧
          ∀ f ∈ (knownMembers members).map Prod.fst, f ∉ d.given) ∧
        (knownMembers members).foldlM (fun c pair => pair.1.set? c pair.2) d.config = some c := by
  induction members generalizing d with
  | nil => simp [knownMembers]
  | cons member members ih =>
    obtain ⟨key, v⟩ := member
    rw [List.foldlM_cons, List.forall_mem_cons]
    cases key with
    | none => simp [Draft.takeMember?]
    | some s =>
      cases known : Field.ofName? s with
      | none =>
        rw [takeMember?_of_unknown known, knownMembers_of_unknown known, Option.bind_eq_bind,
          Option.bind_some, ih]
        simp
      | some f =>
        rw [takeMember?_of_known known, knownMembers_of_known known, List.map_cons,
          List.nodup_cons, List.forall_mem_cons, List.foldlM_cons]
        by_cases again : f ∈ d.given
        · simp [again]
        · rw [if_neg again]
          cases set : f.set? d.config v with
          | none => simp
          | some next =>
            simp only [Option.map_some, Option.bind_eq_bind, Option.bind_some, ih,
              forall_not_mem_cons_iff, Option.isSome_some, true_and]
            tauto

/-- The members of an object give these values to fields: names are texts, no field is named twice,
and whatever else is named does not matter. -/
structure GivesByName (members : List (Json.Text × Value)) (given : Field → Option Value) : Prop where
  named : ∀ member ∈ members, member.1.isSome
  once : (members.filterMap fun member => member.1.bind Field.ofName?).Nodup
  given_iff : ∀ f v, given f = some v ↔ (some f.name, v) ∈ members

theorem give_eq {pairs : List (Field × Value)} (once : (pairs.map Prod.fst).Nodup)
    (same : ∀ f v, given f = some v ↔ (f, v) ∈ pairs) : give (fun _ => none) pairs = given := by
  funext f
  ext v
  rw [give_eq_some_iff once, same]
  simp

theorem foldlM_set?_eq_some_iff {pairs : List (Field × Value)} (once : (pairs.map Prod.fst).Nodup)
    (same : ∀ f v, given f = some v ↔ (f, v) ∈ pairs) :
    pairs.foldlM (fun c pair => pair.1.set? c pair.2) {} = some c ↔
      (∀ f v, given f = some v → f.Fits v) ∧ c = ofGiven given := by
  change pairs.foldlM _ (ofGiven fun _ => none) = some c ↔ _
  rw [foldlM_set?_ofGiven, give_eq once same, Prod.forall]
  simp only [same]

theorem map_fst_knownMembers (members : List (Json.Text × Value)) :
    (knownMembers members).map Prod.fst =
      members.filterMap fun member => member.1.bind Field.ofName? := by
  simp [knownMembers, List.map_filterMap, Option.map_map, Function.comp_def]

/-- An object describes the config with the values that it gives by name. -/
theorem ofJson?_object (members : List (Json.Text × Value)) :
    ofJson? (.object members) = some c ↔ ∃ given, GivesByName members given ∧
      (∀ f v, given f = some v → f.Fits v) ∧ c = ofGiven given := by
  rw [ofJson?, foldlM_takeMember?]
  constructor
  · rintro ⟨named, ⟨once, -⟩, taken⟩
    have same (f : Field) (v : Value) : give (fun _ => none) (knownMembers members) f = some v ↔
        (f, v) ∈ knownMembers members := by
      simp [give_eq_some_iff once]
    obtain ⟨fits, rfl⟩ := (foldlM_set?_eq_some_iff once same).mp taken
    refine ⟨_, ⟨named, ?_, fun f v => ?_⟩, fits, rfl⟩
    · rwa [← map_fst_knownMembers]
    · rw [same, mem_knownMembers_iff]
  · rintro ⟨given, ⟨named, once, same⟩, fits, rfl⟩
    rw [← map_fst_knownMembers] at once
    refine ⟨named, ⟨once, fun f _ => List.not_mem_nil⟩, ?_⟩
    refine (foldlM_set?_eq_some_iff once fun f v => ?_).mpr ⟨fits, rfl⟩
    rw [same, mem_knownMembers_iff]

/-! ### Arrays -/

/-- The place of a field in documents that name none. -/
def Field.position (f : Field) : Nat := Field.all.idxOf f

theorem nodup_all : Field.all.Nodup := by decide

theorem mem_zip_all_iff {items : List Value} {f : Field} {v : Value} :
    (f, v) ∈ Field.all.zip items ↔ items[f.position]? = some v := by
  have placed : Field.all[f.position]? = some f := by cases f <;> rfl
  rw [List.mem_iff_getElem?]
  simp only [List.getElem?_zip_eq_some]
  constructor
  · rintro ⟨i, field, item⟩
    obtain ⟨within, rfl⟩ := List.getElem?_eq_some_iff.mp field
    rwa [Field.position, nodup_all.idxOf_getElem]
  · intro item
    exact ⟨f.position, placed, item⟩

/-- An array describes the config with the values that it gives by position. -/
theorem ofJson?_array (items : List Value) :
    ofJson? (.array items) = some c ↔ items.length ≤ Field.all.length ∧
      (∀ (f : Field) v, items[f.position]? = some v → f.Fits v) ∧
      c = ofGiven fun f => items[f.position]? := by
  rw [ofJson?]
  split
  · next few =>
    have once : ((Field.all.zip items).map Prod.fst).Nodup := by
      rw [List.zip_eq_zip_take_min, List.map_fst_zip]
      · exact nodup_all.sublist (List.take_sublist _ _)
      · simp
    rw [foldlM_set?_eq_some_iff once fun f v => mem_zip_all_iff.symm]
    simp [few]
  · next many => simp [many]

/-! ### Written configs -/

theorem value_reread (n : Json.Number) : n.reread.decimal.value = n.decimal.value := by
  rw [Json.Number.reread]
  split
  · next form =>
    obtain ⟨k, exponent⟩ := Int.eq_ofNat_of_zero_le form.2.1
    rw [Decimal.value, Decimal.value, exponent, Int.toNat_natCast, zpow_natCast, pow_succ]
    push_cast
    norm_num
    ring
  · rfl

theorem negative_reread (n : Json.Number) : n.reread.negative = n.negative := by
  rw [Json.Number.reread]
  split <;> rfl

theorem wordOf?_ofNat (x : UInt64) : Field.wordOf? (Value.ofNat x.toNat).reread = some x := by
  have most : x.toNat ≤ Number.maxWord := Nat.le_of_lt_succ x.toNat_lt
  rw [Value.ofNat, Value.reread, Json.Number.reread_eq_self (.inl rfl)]
  simp [Field.wordOf?, Json.Number.toWord?, Json.Number.toNat?, Json.Number.ofNat, most]

theorem floatOf?_ofFloat {x : Float} (finite : x.isFinite = true) :
    Field.floatOf? (Value.ofFloat x).reread = some x := by
  obtain ⟨d, decoded⟩ := Number.isFinite_iff.mp finite
  simp only [Value.ofFloat, decoded, Value.reread, Field.floatOf?, Json.Number.toFloat?,
    negative_reread]
  exact Decimal.nearest?_of_value_eq decoded (value_reread _)

theorem isWritable_ofFloat (x : Float) : (Value.ofFloat x).IsWritable := by
  rw [Value.ofFloat]
  split
  · next d decoded =>
    have canonical := Number.isCanonical_of_ofFloat decoded
    exact ⟨by simp, fun zero => le_of_eq (Decimal.exponent_shortest_of_zero canonical zero)⟩
  · trivial

theorem isWritable_get (c : Config) (f : Field) : (f.get c).IsWritable := by
  cases f
  case certainty => exact isWritable_ofFloat _
  case falsePositiveRate => exact isWritable_ofFloat _
  case countsAccesses => trivial
  all_goals exact ⟨fun _ => rfl, fun _ => le_refl _⟩

theorem isWritable_toJson (c : Config) : c.toJson.IsWritable := by
  rw [toJson, Value.ofMembers, Value.IsWritable, Value.membersWritable_iff]
  simp [isWritable_get]

theorem mem_all (f : Field) : f ∈ Field.all := by cases f <;> decide

theorem name_injective {f f' : Field} (h : f.name = f'.name) : f = f' :=
  Option.some.inj (((ofName?_eq_some_iff.mpr rfl).symm.trans (ofName?_eq_some_iff.mpr h)))

theorem givesByName_toJson (c : Config) :
    GivesByName (Field.all.map fun f => (some f.name, (f.get c).reread))
      fun f => some (f.get c).reread where
  named := by simp
  once := by
    have known (f : Field) : Field.ofName? f.name = some f := ofName?_eq_some_iff.mpr rfl
    simp [List.filterMap_map, known, nodup_all]
  given_iff f v := by
    simp only [Option.some.injEq, List.mem_map, mem_all, true_and, Prod.mk.injEq]
    constructor
    · rintro rfl
      exact ⟨f, rfl, rfl⟩
    · rintro ⟨f', name, rfl⟩
      rw [name_injective name]

theorem ofGiven_get (c : Config) (certain : c.certainty.isFinite = true)
    (rated : c.falsePositiveRate.isFinite = true) :
    ofGiven (fun f => some (f.get c).reread) = { c with source := .clock } := by
  simp [ofGiven, Field.get, wordOf?_ofNat, floatOf?_ofFloat certain, floatOf?_ofFloat rated,
    Value.reread, Field.boolOf?]

theorem fits_get (certain : c.certainty.isFinite = true) (rated : c.falsePositiveRate.isFinite = true)
    (f : Field) : f.Fits (f.get c).reread := by
  cases f <;>
    simp [Field.Fits, Field.get, wordOf?_ofNat, floatOf?_ofFloat certain, floatOf?_ofFloat rated,
      Value.reread, Field.boolOf?]

/-- A config that was written is read back, with the wall clock as its ticker. -/
theorem parse?_render_toJson (certain : c.certainty.isFinite = true)
    (rated : c.falsePositiveRate.isFinite = true) :
    parse? c.toJson.render = some { c with source := .clock } := by
  have written : c.toJson.reread = .object (Field.all.map fun f => (some f.name, (f.get c).reread)) := by
    rw [toJson, Value.ofMembers, Value.reread, Value.rereadMembers_eq_map, List.map_map, List.map_map]
    rfl
  rw [parse?, Value.parse?_render _ (isWritable_toJson c), Option.bind_some, written,
    ofJson?_object]
  refine ⟨_, givesByName_toJson c, ?_, (ofGiven_get c certain rated).symm⟩
  rintro f v ⟨⟩
  exact fits_get certain rated f

/-- Documents and configs: what is written is read back, objects are read by name in any order, and
arrays by position. -/
theorem documents_describe_configs :
    (∀ c : Config, c.certainty.isFinite = true → c.falsePositiveRate.isFinite = true →
      parse? c.toJson.render = some { c with source := .clock }) ∧
    (∀ text members c, Value.parse? text = some (.object members) →
      (parse? text = some c ↔ ∃ given, GivesByName members given ∧
        (∀ f v, given f = some v → f.Fits v) ∧ c = ofGiven given)) ∧
    ∀ text items c, Value.parse? text = some (.array items) →
      (parse? text = some c ↔ items.length ≤ Field.all.length ∧
        (∀ (f : Field) v, items[f.position]? = some v → f.Fits v) ∧
        c = ofGiven fun f => items[f.position]?) := by
  refine ⟨fun c => parse?_render_toJson, fun text members c read => ?_, fun text items c read => ?_⟩
  · rw [parse?, read, Option.bind_some, ofJson?_object]
  · rw [parse?, read, Option.bind_some, ofJson?_array]

/-- A config with small and large numbers; an object with two of the fields, out of order, among
others; and an array of two fields. -/
theorem documents_describe_configs_partly :
    (parse? (toJson { maxOps := 18446744073709551615, certainty := 5e-324 }).render =
      some { maxOps := 18446744073709551615, certainty := 5e-324 }) ∧
    parse? "\x7b\"ticker\":[1],\"cms_max_depth\":3,\"ticker\":0,\"num_buckets\":5\x7d" =
      some { bucketCount := 5, maxDepth := 3 } ∧
    parse? "[4, 7]" = some { bucketCount := 4, ticksPerBucket := 7 } := by
  refine ⟨documents_describe_configs.1 _ (by decide +kernel) (by decide +kernel),
    (documents_describe_configs.2.1 _
      [(some "ticker", .array [.ofNat 1]), (some "cms_max_depth", .ofNat 3),
        (some "ticker", .ofNat 0), (some "num_buckets", .ofNat 5)] _ (by cbv)).mpr
      ⟨fun f => match f with
        | .bucketCount => some (.ofNat 5)
        | .maxDepth => some (.ofNat 3)
        | _ => none, ⟨by simp, by decide, ?_⟩, ?_, rfl⟩,
    (documents_describe_configs.2.2 _ [.ofNat 4, .ofNat 7] _ (by cbv)).mpr ⟨by decide, ?_, rfl⟩⟩
  · intro f v
    cases f <;> simp [Field.name, eq_comm]
  · intro f v
    cases f <;> rintro ⟨⟩ <;> rfl
  · intro f v
    cases f <;> rintro ⟨⟩ <;> rfl

end AccessHistory.Config
