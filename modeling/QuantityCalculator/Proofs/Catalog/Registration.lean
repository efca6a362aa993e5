import Mathlib.Data.List.Nodup
import Mathlib.Data.List.Pairwise
import QuantityCalculator.Catalog.Basic

/-!
Registration of units.

A request either fails and leaves the catalogue as it was, or adds one entry that both indexes lead to.  So
after any requests the indexes lead to the entries that they are to lead to, and what has been found once is found
from then on.
-/

namespace QuantityCalculator

namespace Catalog

/-! ### Updates -/

namespace Update

variable {α β : Type} (catalog : Catalog)

private theorem runOn_pure (value : α) : (pure value : Update α).runOn catalog = (.ok value, catalog) :=
  rfl

private theorem runOn_throw (conflict : Conflict) : (throw conflict : Update α).runOn catalog =
    (.error conflict, catalog) :=
  rfl

private theorem runOn_get : (get : Update Catalog).runOn catalog = (.ok catalog, catalog) :=
  rfl

private theorem runOn_modify (change : Catalog → Catalog) :
    (modify change : Update PUnit).runOn catalog = (.ok (), change catalog) :=
  rfl

private theorem runOn_ite (condition : Prop) [Decidable condition] (first second : Update α) :
    (if condition then first else second).runOn catalog =
      if condition then first.runOn catalog else second.runOn catalog := by
  split <;> rfl

private theorem runOn_bind (update : Update α) (next : α → Update β) :
    (update >>= next).runOn catalog =
      match update.runOn catalog with
      | (.ok value, after) => (next value).runOn after
      | (.error conflict, after) => (.error conflict, after) := by
  unfold runOn
  rw [ExceptT.run_bind, StateT.run_bind]
  generalize StateT.run (ExceptT.run update) catalog = ran
  obtain ⟨result, after⟩ := ran
  cases result <;> rfl

/-- An entry comes to the end, under its name, unless the name is taken. -/
private theorem runOn_push (entry : Entry) :
    (push entry).runOn catalog =
      match entry.name with
      | none => (.ok catalog.entries.length, { catalog with entries := catalog.entries ++ [entry] })
      | some name =>
        if (catalog.positionOfName? name).isSome then (.error (.nameTaken name), catalog)
        else
          (.ok catalog.entries.length,
            { catalog with
              entries := catalog.entries ++ [entry]
              nameIndex := (name, catalog.entries.length) :: catalog.nameIndex }) := by
  cases named : entry.name with
  | none => simp only [push, named, runOn_bind, runOn_get, runOn_modify, runOn_pure]
  | some name => simp only [push, named, runOn_bind, runOn_get, runOn_modify, runOn_pure, runOn_ite, runOn_throw]

end Update

variable {catalog : Catalog} {entry : Entry}

/-! ### Catalogues with sound indexes -/

def Entry.isNamed (name : String) (entry : Entry) : Bool :=
  entry.name = some name

def Entry.defines (measure : Measure) (entry : Entry) : Bool :=
  !entry.derived && entry.measure.same measure

def definedDimensions (catalog : Catalog) : List Dimension :=
  (catalog.entries.filter fun entry => !entry.derived).map fun entry => entry.measure.dimension

/-- Names and units of defined entries are distinct, and the indexes lead to them. -/
structure Indexed (catalog : Catalog) : Prop where
  coherent : ∀ entry, entry ∈ catalog.entries → entry.derived = false →
    entry.measure = Measure.coherent entry.measure.dimension
  units : ∀ measure, catalog.positionOfUnit? measure = catalog.entries.findIdx? (Entry.defines measure)
  names : ∀ name, catalog.positionOfName? name = catalog.entries.findIdx? (Entry.isNamed name)
  distinctUnits : catalog.definedDimensions.Nodup
  distinctNames : catalog.names.Nodup

theorem empty_indexed : empty.Indexed :=
  ⟨fun _ member => (List.not_mem_nil member).elim, fun _ => rfl, fun _ => rfl, .nil, .nil⟩

theorem mem_names_iff {name : String} :
    name ∈ catalog.names ↔ ∃ entry, entry ∈ catalog.entries ∧ entry.name = some name :=
  List.mem_filterMap

theorem mem_definedDimensions_iff {dimension : Dimension} :
    dimension ∈ catalog.definedDimensions ↔
      ∃ entry, entry ∈ catalog.entries ∧ entry.derived = false ∧ entry.measure.dimension = dimension := by
  simp only [definedDimensions, List.mem_map, List.mem_filter, Bool.not_eq_true', and_assoc]

/-- A defined entry is that of all units of its dimension that are as large as one. -/
theorem Entry.defines_iff {measure : Measure}
    (coherent : entry.derived = false → entry.measure = .coherent entry.measure.dimension) :
    entry.defines measure = true ↔ entry.derived = false ∧ entry.measure.dimension = measure.dimension ∧
      Number.one.same measure.factor = true := by
  rw [defines, Bool.and_eq_true_iff, Bool.not_eq_true']
  refine and_congr_right fun defined => ?_
  rw [coherent defined, Measure.same, Bool.and_eq_true_iff, decide_eq_true_iff]
  rfl

namespace Indexed

theorem positionOfName?_eq_none_iff (indexed : catalog.Indexed) {name : String} :
    catalog.positionOfName? name = none ↔ name ∉ catalog.names := by
  rw [indexed.names, List.findIdx?_eq_none_iff, mem_names_iff]
  simp only [Entry.isNamed, decide_eq_false_iff_not, not_exists, not_and]

theorem positionOfUnit?_eq_none_iff (indexed : catalog.Indexed) {measure : Measure}
    (isOne : Number.one.same measure.factor = true) :
    catalog.positionOfUnit? measure = none ↔ measure.dimension ∉ catalog.definedDimensions := by
  rw [indexed.units, List.findIdx?_eq_none_iff, mem_definedDimensions_iff, not_exists]
  refine forall_congr' fun entry => ?_
  rw [not_and]
  refine imp_congr_right fun member => ?_
  rw [← Bool.not_eq_true, Entry.defines_iff (indexed.coherent entry member), isOne, eq_self, and_true]

end Indexed

/-! ### Adding entries -/

def extend (catalog : Catalog) (entry : Entry) : Catalog :=
  let position := catalog.entries.length
  { entries := catalog.entries ++ [entry]
    unitIndex := if entry.derived then catalog.unitIndex else (entry.measure, position) :: catalog.unitIndex
    nameIndex := match entry.name with
      | some name => (name, position) :: catalog.nameIndex
      | none => catalog.nameIndex }

private theorem names_extend (catalog : Catalog) (entry : Entry) :
    (catalog.extend entry).names = catalog.names ++ entry.name.toList := by
  simp only [names, extend, List.filterMap_append]
  cases named : entry.name <;> simp [named]

private theorem definedDimensions_extend (catalog : Catalog) (entry : Entry) :
    (catalog.extend entry).definedDimensions =
      catalog.definedDimensions ++ if entry.derived then [] else [entry.measure.dimension] := by
  simp only [definedDimensions, extend, List.filter_append, List.map_append]
  cases derived : entry.derived <;> simp [derived]

structure Fresh (catalog : Catalog) (entry : Entry) : Prop where
  name : ∀ name, entry.name = some name → name ∉ catalog.names
  unit : entry.derived = false → entry.measure = .coherent entry.measure.dimension ∧
    entry.measure.dimension ∉ catalog.definedDimensions

private theorem positionOfName?_extend (indexed : catalog.Indexed) (fresh : catalog.Fresh entry) (name : String) :
    (catalog.extend entry).positionOfName? name =
      (catalog.entries ++ [entry]).findIdx? (Entry.isNamed name) := by
  rw [List.findIdx?_append, List.findIdx?_singleton, ← indexed.names, Entry.isNamed]
  cases named : entry.name with
  | none =>
      simp only [positionOfName?, extend, named, reduceCtorEq, decide_false, Bool.false_eq_true, if_false,
        Option.map_none, Option.or_none]
  | some own =>
      simp only [positionOfName?, extend, named, List.lookup_cons]
      by_cases same : name = own
      · have free := indexed.positionOfName?_eq_none_iff.mpr (fresh.name own named)
        rw [positionOfName?] at free
        simp only [same, beq_self_eq_true, decide_true, if_true, free, Option.map_some, Nat.zero_add, Option.none_or]
      · have differs : (name == own) = false := beq_false_of_ne same
        have others : some own ≠ some name := fun equal => same (Option.some.inj equal).symm
        simp only [differs, others, decide_false, Bool.false_eq_true, if_false, Option.map_none, Option.or_none]

private theorem positionOfUnit?_extend (indexed : catalog.Indexed) (fresh : catalog.Fresh entry) (measure : Measure) :
    (catalog.extend entry).positionOfUnit? measure =
      (catalog.entries ++ [entry]).findIdx? (Entry.defines measure) := by
  rw [List.findIdx?_append, List.findIdx?_singleton, ← indexed.units, Entry.defines]
  cases derived : entry.derived with
  | true =>
      simp only [positionOfUnit?, extend, derived, if_true, Bool.not_true, Bool.false_and, Bool.false_eq_true,
        if_false, Option.map_none, Option.or_none]
  | false =>
      simp only [positionOfUnit?, extend, derived, Bool.false_eq_true, if_false, Bool.not_false, Bool.true_and,
        List.find?_cons]
      cases same : entry.measure.same measure with
      | true =>
          obtain ⟨coherent, unused⟩ := fresh.unit derived
          rw [coherent, Measure.same, Bool.and_eq_true_iff, decide_eq_true_iff] at same
          have free := (indexed.positionOfUnit?_eq_none_iff same.2).mpr (same.1 ▸ unused)
          rw [positionOfUnit?] at free
          simp only [if_true, free, Option.map_some, Nat.zero_add, Option.none_or]
      | false => simp only [Bool.false_eq_true, if_false, Option.map_none, Option.or_none]

private theorem extend_indexed (indexed : catalog.Indexed) (fresh : catalog.Fresh entry) :
    (catalog.extend entry).Indexed := by
  refine ⟨?_, positionOfUnit?_extend indexed fresh, positionOfName?_extend indexed fresh, ?_, ?_⟩
  · intro other member defined
    rcases List.mem_append.mp member with before | last
    · exact indexed.coherent other before defined
    · rw [List.mem_singleton.mp last] at defined ⊢
      exact (fresh.unit defined).1
  · rw [definedDimensions_extend]
    cases derived : entry.derived with
    | true => simpa using indexed.distinctUnits
    | false => simpa using indexed.distinctUnits.concat (fresh.unit derived).2
  · rw [names_extend]
    cases named : entry.name with
    | none => simpa using indexed.distinctNames
    | some own => simpa using indexed.distinctNames.concat (fresh.name own named)

/-! ### Requests -/

def Registration.requested (catalog : Catalog) : Registration → Entry
  | .define name weight quantity dimension barred =>
    { name, measure := .coherent dimension, weight, quantity := some quantity, derived := false, barred }
  | .derive name measure barred =>
    { name := some name, measure, weight := Update.derivedWeight
      quantity := (catalog.entryOf? (.coherent measure.dimension)).bind Entry.quantity, derived := true, barred }

def nameConflict? (catalog : Catalog) (name : String) : Option Conflict :=
  if name ∈ catalog.names then some (.nameTaken name) else none

def Registration.conflict? (catalog : Catalog) : Registration → Option Conflict
  | .define name _ _ dimension _ =>
    if dimension ∈ catalog.definedDimensions then some (.unitTaken dimension) else name.bind catalog.nameConflict?
  | .derive name _ _ => catalog.nameConflict? name

private theorem Registration.fresh_of_conflict? {request : Registration} (free : request.conflict? catalog = none) :
    catalog.Fresh (request.requested catalog) := by
  have unused : ∀ {name : String}, catalog.nameConflict? name = none → name ∉ catalog.names := by
    intro name free taken
    rw [nameConflict?, if_pos taken] at free
    cases free
  cases request with
  | define name weight quantity dimension barred =>
      rw [conflict?] at free
      split at free
      · cases free
      · rename_i undefined
        refine ⟨fun own named => ?_, fun _ => ⟨rfl, undefined⟩⟩
        have isOwn : name = some own := named
        rw [isOwn] at free
        exact unused free
  | derive name measure barred =>
      exact ⟨fun own named => Option.some.inj named ▸ unused free, fun defined => by cases defined⟩

namespace Indexed

private theorem runOn_push (indexed : catalog.Indexed) (entry : Entry) :
    (Update.push entry).runOn catalog =
      match entry.name.bind catalog.nameConflict? with
      | some conflict => (.error conflict, catalog)
      | none => (.ok catalog.entries.length, { catalog.extend entry with unitIndex := catalog.unitIndex }) := by
  rw [Update.runOn_push]
  cases named : entry.name with
  | none => simp only [Option.bind_none, extend, named]
  | some name =>
      simp only [Option.bind_some, nameConflict?, extend, named]
      by_cases taken : name ∈ catalog.names
      · have found : (catalog.positionOfName? name).isSome = true :=
          Option.isSome_iff_ne_none.mpr fun none => indexed.positionOfName?_eq_none_iff.mp none taken
        rw [if_pos found, if_pos taken]
      · have unused := indexed.positionOfName?_eq_none_iff.mpr taken
        rw [unused, if_neg taken, if_neg (by decide)]

/-- A request changes nothing if it cannot be met, and otherwise adds the entry that it is to add. -/
theorem runOn_update (indexed : catalog.Indexed) (request : Registration) :
    request.update.runOn catalog =
      match request.conflict? catalog with
      | some conflict => (.error conflict, catalog)
      | none => (.ok (request.requested catalog).measure, catalog.extend (request.requested catalog)) := by
  cases request with
  | define name weight quantity dimension barred =>
      simp only [Registration.update, Update.define, Update.runOn_bind, Update.runOn_get, Update.runOn_ite,
        Update.runOn_throw, Update.runOn_modify, Update.runOn_pure, Registration.conflict?, indexed.runOn_push]
      by_cases taken : dimension ∈ catalog.definedDimensions
      · have found : (catalog.positionOfUnit? (.coherent dimension)).isSome = true :=
          Option.isSome_iff_ne_none.mpr fun none => (indexed.positionOfUnit?_eq_none_iff rfl).mp none taken
        rw [if_pos found, if_pos taken]
      · have unused : catalog.positionOfUnit? (.coherent dimension) = none :=
          (indexed.positionOfUnit?_eq_none_iff rfl).mpr taken
        rw [unused, if_neg taken, if_neg (by decide)]
        cases name.bind catalog.nameConflict? <;> rfl
  | derive name measure barred =>
      simp only [Registration.update, Update.derive, Update.runOn_bind, Update.runOn_get, Update.runOn_pure,
        Registration.conflict?, indexed.runOn_push, Option.bind_some]
      cases catalog.nameConflict? name <;> rfl

end Indexed

/-! ### Queries -/

/-- What is found first is what is found, if nothing else fits. -/
theorem find?_eq_some_iff_of_unique {fits : Entry → Bool} {entries : List Entry}
    (unique : ∀ first, first ∈ entries → ∀ second, second ∈ entries → fits first = true → fits second = true →
      first = second) :
    entries.find? fits = some entry ↔ entry ∈ entries ∧ fits entry = true := by
  constructor
  · exact fun found => ⟨List.mem_of_find?_eq_some found, List.find?_some found⟩
  · rintro ⟨member, entryFits⟩
    obtain ⟨first, found⟩ := Option.isSome_iff_exists.mp (List.find?_isSome.mpr ⟨entry, member, entryFits⟩)
    rw [found, unique first (List.mem_of_find?_eq_some found) entry member (List.find?_some found) entryFits]

namespace Indexed

private theorem eq_of_name (indexed : catalog.Indexed) {first second : Entry} (inFirst : first ∈ catalog.entries)
    (inSecond : second ∈ catalog.entries) {name : String} (firstNamed : first.name = some name)
    (secondNamed : second.name = some name) : first = second := by
  have agree : catalog.entries.Pairwise fun first second =>
      first.name = some name → second.name = some name → first = second :=
    (List.pairwise_filterMap.mp indexed.distinctNames).imp fun differ firstNamed secondNamed =>
      absurd rfl (differ name firstNamed name secondNamed)
  refine @List.Pairwise.forall_of_forall _ _ _ ⟨?_⟩ (fun _ _ _ _ => rfl) agree _ inFirst _ inSecond firstNamed
    secondNamed
  exact fun _ _ agrees secondNamed firstNamed => (agrees firstNamed secondNamed).symm

private theorem eq_of_dimension (indexed : catalog.Indexed) {first second : Entry} (inFirst : first ∈ catalog.entries)
    (inSecond : second ∈ catalog.entries) (firstDefined : first.derived = false)
    (secondDefined : second.derived = false) (same : first.measure.dimension = second.measure.dimension) :
    first = second := by
  refine List.inj_on_of_nodup_map indexed.distinctUnits (List.mem_filter.mpr ⟨inFirst, ?_⟩)
    (List.mem_filter.mpr ⟨inSecond, ?_⟩) same
  · rw [firstDefined]
    rfl
  · rw [secondDefined]
    rfl

theorem lookup?_eq_some_iff (indexed : catalog.Indexed) {name : String} :
    catalog.lookup? name = some entry ↔ entry ∈ catalog.entries ∧ entry.name = some name := by
  rw [lookup?, indexed.names, ← List.find?_eq_bind_findIdx?_getElem?, find?_eq_some_iff_of_unique]
  · rw [Entry.isNamed, decide_eq_true_iff]
  · exact fun first inFirst second inSecond firstNamed secondNamed =>
      indexed.eq_of_name inFirst inSecond (of_decide_eq_true firstNamed) (of_decide_eq_true secondNamed)

theorem lookup?_eq_none_iff (indexed : catalog.Indexed) {name : String} :
    catalog.lookup? name = none ↔ name ∉ catalog.names := by
  rw [Option.eq_none_iff_forall_ne_some, mem_names_iff, not_exists]
  exact forall_congr' fun entry => not_congr indexed.lookup?_eq_some_iff

theorem entryOf?_eq_some_iff (indexed : catalog.Indexed) {measure : Measure} :
    catalog.entryOf? measure = some entry ↔
      entry ∈ catalog.entries ∧ entry.derived = false ∧ entry.measure.same measure = true := by
  rw [entryOf?, indexed.units, ← List.find?_eq_bind_findIdx?_getElem?, find?_eq_some_iff_of_unique]
  · rw [Entry.defines, Bool.and_eq_true_iff, Bool.not_eq_true']
  · intro first inFirst second inSecond firstDefines secondDefines
    have ofFirst := (Entry.defines_iff (indexed.coherent first inFirst)).mp firstDefines
    have ofSecond := (Entry.defines_iff (indexed.coherent second inSecond)).mp secondDefines
    exact indexed.eq_of_dimension inFirst inSecond ofFirst.1 ofSecond.1 (ofFirst.2.1.trans ofSecond.2.1.symm)

end Indexed

/-! ### Runs -/

/-- What can be relied on when a catalogue is asked. -/
structure Sound (catalog : Catalog) : Prop where
  distinctNames : catalog.names.Nodup
  lookup : ∀ name entry, catalog.lookup? name = some entry ↔ entry ∈ catalog.entries ∧ entry.name = some name
  entryOf : ∀ measure entry, catalog.entryOf? measure = some entry ↔
    entry ∈ catalog.entries ∧ entry.derived = false ∧ entry.measure.same measure = true
  distinctUnits : catalog.definedDimensions.Nodup
  naming : ∀ entry, entry ∈ catalog.namingEntries → entry.derived = false ∧ entry.measure.factor = .one
  distinctDimensions : (catalog.namingEntries.map fun entry => entry.measure.dimension).Nodup

theorem Indexed.sound (indexed : catalog.Indexed) : catalog.Sound where
  distinctNames := indexed.distinctNames
  lookup := fun _ _ => indexed.lookup?_eq_some_iff
  entryOf := fun _ _ => indexed.entryOf?_eq_some_iff
  distinctUnits := indexed.distinctUnits
  naming := by
    intro entry naming
    obtain ⟨member, hasName⟩ := List.mem_filter.mp naming
    have defined : entry.derived = false := by simpa using (Bool.and_eq_true_iff.mp hasName).2
    exact ⟨defined, congrArg Measure.factor (indexed.coherent entry member defined)⟩
  distinctDimensions := by
    have fewer := List.monotone_filter_right catalog.entries
      (p := fun entry => entry.name.isSome && !entry.derived) (q := fun entry => !entry.derived)
      fun entry both => (Bool.and_eq_true_iff.mp both).2
    exact indexed.distinctUnits.sublist (fewer.map _)

inductive Registered (catalog : Catalog) (request : Registration) : Except Conflict Measure × Catalog → Prop where
  | refused {conflict : Conflict} (found : request.conflict? catalog = some conflict) :
      Registered catalog request (.error conflict, catalog)
  | added {next : Catalog} (free : request.conflict? catalog = none)
      (entries : next.entries = catalog.entries ++ [request.requested catalog])
      (lookup : ∀ name entry, catalog.lookup? name = some entry → next.lookup? name = some entry)
      (entryOf : ∀ measure entry, catalog.entryOf? measure = some entry → next.entryOf? measure = some entry) :
      Registered catalog request (.ok (request.requested catalog).measure, next)

theorem Indexed.registered (indexed : catalog.Indexed) (request : Registration) :
    (request.update.runOn catalog).2.Indexed ∧ Registered catalog request (request.update.runOn catalog) := by
  rw [indexed.runOn_update]
  cases conflict : request.conflict? catalog with
  | some reason => exact ⟨indexed, .refused conflict⟩
  | none =>
      have next := extend_indexed indexed (Registration.fresh_of_conflict? conflict)
      refine ⟨next, .added conflict rfl (fun name entry found => ?_) fun measure entry found => ?_⟩
      · obtain ⟨member, named⟩ := indexed.lookup?_eq_some_iff.mp found
        exact next.lookup?_eq_some_iff.mpr ⟨List.mem_append_left _ member, named⟩
      · obtain ⟨member, defines⟩ := indexed.entryOf?_eq_some_iff.mp found
        exact next.entryOf?_eq_some_iff.mpr ⟨List.mem_append_left _ member, defines⟩

theorem registerAll_indexed (indexed : catalog.Indexed) (requests : List Registration) :
    (catalog.registerAll requests).Indexed := by
  induction requests generalizing catalog with
  | nil => exact indexed
  | cons request rest ih => exact ih (indexed.registered request).1

/-- Whatever has been requested of an empty catalogue, its queries find what they are to find, and a further request
either changes nothing or adds one entry and takes nothing away. -/
theorem registerAll_sound (requests : List Registration) :
    (empty.registerAll requests).Sound ∧ ∀ request : Registration,
      Registered (empty.registerAll requests) request (request.update.runOn (empty.registerAll requests)) :=
  have indexed := registerAll_indexed empty_indexed requests
  ⟨indexed.sound, fun request => (indexed.registered request).2⟩

-- a unit whose name is taken is not defined, and so can be defined under another name
example : (empty.registerAll [.define (some "m") 2 "distance" (.ofBase .length) [],
    .define (some "m") 2 "time" (.ofBase .time) [], .define (some "s") 2 "time" (.ofBase .time) []]).names =
      ["m", "s"] := by
  decide

end Catalog

end QuantityCalculator
