import Mathlib
import SqlSelect.Entity

/-!
The fields that a list of definitions leaves: for each name the one that was defined last, in an
order that the definitions alone decide. Names of array indices come first, by their numbers, and
the others follow in the order in which they were first defined. Only one list of fields is
arranged so.
-/
namespace SqlSelect.Field

theorem index?_eq_some {name : String} {n : ℕ} :
    index? name = some n ↔ name.toList = Nat.toDigits 10 n ∧ n < 4294967295 := by
  have value (n : ℕ) : Nat.ofDigitChars 10 (Nat.toDigits 10 n) 0 = n :=
    Nat.ofDigitChars_toDigits (by decide) (by decide)
  unfold index?
  constructor
  · intro found
    obtain ⟨numeral, rfl⟩ := Option.ite_some_none_eq_some.1 found
    exact numeral
  · rintro ⟨numeral, small⟩
    simp [numeral, value, small]

theorem name_eq_of_index? {name other : String} {n : ℕ} (first : index? name = some n)
    (second : index? other = some n) : name = other :=
  String.toList_inj.1 ((index?_eq_some.1 first).1.trans (index?_eq_some.1 second).1.symm)

/-- The order of the fields that a list of definitions leaves. -/
inductive Precedes (definitions : List Field) (f g : Field) : Prop
  | byIndex {i j : ℕ} (first : index? f.name = some i) (second : index? g.name = some j)
      (less : i < j)
  | indexFirst {i : ℕ} (first : index? f.name = some i) (second : index? g.name = none)
  | asDefined (first : index? f.name = none) (second : index? g.name = none)
      (earlier : (definitions.map name).idxOf f.name < (definitions.map name).idxOf g.name)

/-- Every name that was defined has its last definition, and the fields are in order. -/
structure Arranged (definitions fields : List Field) : Prop where
  lookup : ∀ name, fields.find? (·.name = name) = definitions.reverse.find? (·.name = name)
  order : fields.Pairwise (Precedes definitions)

section Order

variable {definitions : List Field} {f g : Field}

theorem Precedes.name_ne (before : Precedes definitions f g) : f.name ≠ g.name := by
  intro same
  cases before with
  | byIndex first second less =>
    rw [same, second] at first
    exact less.ne (Option.some.inj first).symm
  | indexFirst first second =>
    rw [same, second] at first
    cases first
  | asDefined first second earlier => exact earlier.ne (same ▸ rfl)

theorem Precedes.asymm (before : Precedes definitions f g) (back : Precedes definitions g f) :
    False := by
  cases before with
  | byIndex first second less =>
    cases back with
    | byIndex first' second' less' =>
      obtain rfl := Option.some.inj (first.symm.trans second')
      obtain rfl := Option.some.inj (second.symm.trans first')
      exact less.asymm less'
    | indexFirst first' second' => cases first.symm.trans second'
    | asDefined first' second' => cases first.symm.trans second'
  | indexFirst first second =>
    cases back with
    | byIndex first' second' => cases second.symm.trans first'
    | indexFirst first' second' => cases second.symm.trans first'
    | asDefined first' second' => cases first.symm.trans second'
  | asDefined first second earlier =>
    cases back with
    | byIndex first' second' => cases second.symm.trans first'
    | indexFirst first' second' => cases second.symm.trans first'
    | asDefined first' second' earlier' => exact earlier.asymm earlier'

end Order

/-- Where no two fields have one name, every field is found under its own. -/
theorem find?_eq_some_iff {fields : List Field} (nodup : (fields.map name).Nodup) {sought : String}
    {f : Field} : fields.find? (·.name = sought) = some f ↔ f ∈ fields ∧ f.name = sought := by
  constructor
  · intro found
    exact ⟨List.mem_of_find?_eq_some found, by simpa using List.find?_some found⟩
  · rintro ⟨mem, rfl⟩
    cases found : fields.find? (·.name = f.name) with
    | none => simpa using List.find?_eq_none.1 found f mem
    | some g =>
      have same : g.name = f.name := by simpa using List.find?_some found
      rw [List.inj_on_of_nodup_map nodup (List.mem_of_find?_eq_some found) mem same]

namespace Arranged

variable {definitions fields : List Field}

theorem nodup (arranged : Arranged definitions fields) : (fields.map name).Nodup :=
  List.pairwise_map.2 (arranged.order.imp Precedes.name_ne)

/-- The definitions leave no more than one list of fields. -/
theorem unique {others : List Field} (arranged : Arranged definitions fields)
    (also : Arranged definitions others) : fields = others := by
  have same (f : Field) : f ∈ fields ↔ f ∈ others := by
    have found : f ∈ fields ∧ f.name = f.name ↔ f ∈ others ∧ f.name = f.name := by
      rw [← find?_eq_some_iff arranged.nodup, ← find?_eq_some_iff also.nodup, arranged.lookup,
        also.lookup]
    rwa [and_iff_left rfl, and_iff_left rfl] at found
  have perm := (List.perm_ext_iff_of_nodup (.of_map _ arranged.nodup) (.of_map _ also.nodup)).2 same
  exact perm.eq_of_pairwise (fun f g _ _ before back => (before.asymm back).elim) arranged.order
    also.order

end Arranged

/-! One definition after another. -/

section Merged

variable (definitions : List Field) (f : Field)

def merged : List Field := definitions.foldl (fun fields f => put f fields) []

theorem merged_concat : merged (definitions ++ [f]) = put f (merged definitions) := by
  simp [merged]

theorem find?_put (fields : List Field) (name : String) :
    (put f fields).find? (·.name = name) =
      if f.name = name then some f else fields.find? (·.name = name) := by
  induction fields with
  | nil => by_cases sought : f.name = name <;> simp [put, sought]
  | cons g fields ih =>
    by_cases same : g.name = f.name
    · by_cases sought : f.name = name <;> simp [put, same, sought]
    · by_cases sought : g.name = name
      · have other : f.name ≠ name := fun found => same (sought.trans found.symm)
        simp [put, sought, other, other.symm]
      · simp [put, same, sought, ih]

theorem map_name_put (fields : List Field) : (put f fields).map name =
    if f.name ∈ fields.map name then fields.map name else fields.map name ++ [f.name] := by
  induction fields with
  | nil => simp [put]
  | cons g fields ih =>
    by_cases same : g.name = f.name
    · simp [put, same]
    · have other : f.name ≠ g.name := fun found => same found.symm
      by_cases there : f.name ∈ fields.map name
      · simp only [put, same, List.map_cons, ih, there, List.mem_cons, or_true, if_true, if_false]
      · simp only [put, same, List.map_cons, ih, there, other, List.mem_cons, or_false, if_false,
          List.cons_append]

theorem find?_merged (name : String) :
    (merged definitions).find? (·.name = name) = definitions.reverse.find? (·.name = name) := by
  induction definitions using List.reverseRecOn with
  | nil => rfl
  | append_singleton definitions f ih =>
    rw [merged_concat, find?_put, List.reverse_concat, List.find?_cons, ih]
    by_cases same : f.name = name <;> simp [same]

theorem mem_map_name_merged (found : String) :
    found ∈ (merged definitions).map name ↔ found ∈ definitions.map name := by
  induction definitions using List.reverseRecOn with
  | nil => rfl
  | append_singleton definitions f ih =>
    rw [merged_concat, map_name_put, List.map_append, List.mem_append, ← ih, List.map_singleton,
      List.mem_singleton]
    split
    · next there => exact ⟨.inl, Or.rec id fun same => same ▸ there⟩
    · rw [List.mem_append, List.mem_singleton]

/-- The names stand in the order in which they were first defined. -/
theorem pairwise_merged : ((merged definitions).map name).Pairwise fun a b =>
    (definitions.map name).idxOf a < (definitions.map name).idxOf b := by
  induction definitions using List.reverseRecOn with
  | nil => exact .nil
  | append_singleton definitions f ih =>
    have kept {a : String} (mem : a ∈ (merged definitions).map name) :
        ((definitions ++ [f]).map name).idxOf a = (definitions.map name).idxOf a := by
      rw [List.map_append, List.idxOf_append_of_mem ((mem_map_name_merged definitions a).1 mem)]
    have before : ((merged definitions).map name).Pairwise fun a b =>
        ((definitions ++ [f]).map name).idxOf a < ((definitions ++ [f]).map name).idxOf b := by
      refine ih.imp_of_mem fun first second less => ?_
      rwa [kept first, kept second]
    rw [merged_concat, map_name_put]
    split
    · exact before
    · next new =>
      refine List.pairwise_append.2 ⟨before, List.pairwise_singleton _ _, fun a mem b last => ?_⟩
      obtain rfl := List.mem_singleton.1 last
      have there := (mem_map_name_merged definitions a).1 mem
      rw [kept mem, List.map_append,
        List.idxOf_append_of_notMem fun mem => new ((mem_map_name_merged definitions _).2 mem)]
      exact Nat.lt_add_right _ (List.idxOf_lt_length_of_mem there)

end Merged

/-! The fields as they are kept. -/

section Arrange

variable (fields : List Field)

def indexed : List (ℕ × Field) := fields.filterMap fun f => (index? f.name).map fun n => (n, f)

def sortedByIndex : List (ℕ × Field) := (indexed fields).mergeSort fun a b => a.1 ≤ b.1

theorem index?_of_mem_sorted {fields : List Field} {n : ℕ} {f : Field}
    (mem : (n, f) ∈ sortedByIndex fields) : index? f.name = some n := by
  rw [sortedByIndex, List.mem_mergeSort, indexed, List.mem_filterMap] at mem
  obtain ⟨g, -, found⟩ := mem
  obtain ⟨m, isIndex, pair⟩ := Option.map_eq_some_iff.1 found
  cases pair
  exact isIndex

theorem map_snd_indexed :
    (indexed fields).map Prod.snd = fields.filter fun f => (index? f.name).isSome := by
  induction fields with
  | nil => rfl
  | cons f fields ih =>
    cases isIndex : index? f.name with
    | none => simpa [indexed, isIndex] using ih
    | some n => simpa [indexed, isIndex] using ih

theorem arrange_perm : (arrange fields).Perm fields := by
  have sorted : ((sortedByIndex fields).map Prod.snd).Perm
      (fields.filter fun f => (index? f.name).isSome) := by
    rw [← map_snd_indexed]
    exact (List.mergeSort_perm ..).map _
  have parts := (sorted.append_right _).trans
    (List.filter_append_perm (fun f : Field => (index? f.name).isSome) fields)
  simp only [Option.not_isSome] at parts
  exact parts

/-- Fields of different names are sorted by their indices without ties. -/
theorem pairwise_sortedByIndex (nodup : (fields.map name).Nodup) :
    (sortedByIndex fields).Pairwise fun a b => a.1 < b.1 := by
  have ascending : (sortedByIndex fields).Pairwise fun a b => a.1 ≤ b.1 := by
    refine (List.pairwise_mergeSort ?_ ?_ _).imp of_decide_eq_true
    · intro a b c first second
      exact decide_eq_true ((of_decide_eq_true first).trans (of_decide_eq_true second))
    · intro a b
      simpa using Nat.le_total a.1 b.1
  have distinct : (sortedByIndex fields).Pairwise fun a b => a.2.name ≠ b.2.name := by
    have names : (((sortedByIndex fields).map Prod.snd).map name).Nodup := by
      refine (((List.mergeSort_perm ..).map _).map _).nodup_iff.2 ?_
      rw [map_snd_indexed]
      exact nodup.sublist (List.filter_sublist.map _)
    rw [List.map_map] at names
    exact List.pairwise_map.1 names
  refine (ascending.and distinct).imp_of_mem ?_
  rintro ⟨i, f⟩ ⟨j, g⟩ first second ⟨le, ne⟩
  refine lt_of_le_of_ne le fun same => ne ?_
  obtain rfl : i = j := same
  exact name_eq_of_index? (index?_of_mem_sorted first) (index?_of_mem_sorted second)

end Arrange

theorem arranged_ofDefinitions (definitions : List Field) :
    Arranged definitions (ofDefinitions definitions) := by
  have names := pairwise_merged definitions
  have nodup : ((merged definitions).map name).Nodup :=
    names.imp fun {a b} less (same : a = b) => less.ne (same ▸ rfl)
  have perm := arrange_perm (merged definitions)
  refine ⟨fun sought => ?_, ?_⟩
  · rw [← find?_merged]
    have arranged : ((ofDefinitions definitions).map name).Nodup := (perm.map _).nodup_iff.2 nodup
    ext f
    exact (find?_eq_some_iff arranged).trans
      ((and_congr_left' perm.mem_iff).trans (find?_eq_some_iff nodup).symm)
  · refine List.pairwise_append.2 ⟨?_, ?_, ?_⟩
    · refine List.pairwise_map.2 ((pairwise_sortedByIndex _ nodup).imp_of_mem ?_)
      rintro ⟨i, f⟩ ⟨j, g⟩ first second less
      exact .byIndex (index?_of_mem_sorted first) (index?_of_mem_sorted second) less
    · refine ((List.pairwise_map.1 names).filter _).imp_of_mem fun first second less => ?_
      have first := (List.mem_filter.1 first).2
      have second := (List.mem_filter.1 second).2
      exact .asDefined (Option.isNone_iff_eq_none.1 first) (Option.isNone_iff_eq_none.1 second) less
    · intro f first g second
      obtain ⟨⟨i, f⟩, sorted, rfl⟩ := List.mem_map.1 first
      exact .indexFirst (index?_of_mem_sorted sorted)
        (Option.isNone_iff_eq_none.1 (List.mem_filter.1 second).2)

end SqlSelect.Field
