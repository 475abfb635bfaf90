import Mathlib.Data.List.Zip
import Reconcile.Proofs.Agreement
import Reconcile.Proofs.Document.Members

namespace Reconcile

theorem Strictness.Agree.symm {strictness : Strictness} {source target : Value}
    (agree : strictness.Agree source target) : strictness.Agree target source := by
  cases strictness with
  | trimmed => exact Eq.symm agree
  | stripped =>
    obtain ⟨sourceText, targetText, atSource, atTarget, same⟩ := agree
    exact ⟨targetText, sourceText, atTarget, atSource, same.symm⟩

namespace Value

inductive IsContainer : Value → Prop
  | array (items : List Value) : IsContainer (.array items)
  | object (members : List (String × Value)) : IsContainer (.object members)

def DistinctNames : Value → Prop
  | .object members => (members.map (·.1)).Nodup
  | _ => True

instance (value : Value) : Decidable value.DistinctNames :=
  match value with
  | .object members => inferInstanceAs (Decidable (members.map (·.1)).Nodup)
  | .null | .bool _ | .number _ | .string _ | .array _ => .isTrue trivial

/-- Two containers that differ at most in the order of their own members. -/
inductive SameMembers : Value → Value → Prop
  | array (items : List Value) : SameMembers (.array items) (.array items)
  | object {members others : List (String × Value)} (reordered : members.Perm others) :
      SameMembers (.object members) (.object others)

end Value

namespace Pair

def flip (pair : Pair) : Pair := ⟨pair.step, pair.target, pair.source⟩

theorem flip_injective : Function.Injective flip := by
  rintro ⟨step, source, target⟩ ⟨_, _, _⟩ same
  cases same
  rfl

variable {source target others : List (String × Value)}

theorem compare_eq_ok_iff_of_perm {pairs others : List Pair} (reordered : pairs.Perm others)
    (strictness : Strictness) (count : Nat) :
    compare strictness pairs = .ok count ↔ compare strictness others = .ok count := by
  simp only [compare_eq_ok_iff, reordered.mem_iff, reordered.length_eq]

theorem compare_flip_eq_ok_iff (strictness : Strictness) (pairs : List Pair) (count : Nat) :
    compare strictness (pairs.map flip) = .ok count ↔ compare strictness pairs = .ok count := by
  have swapped (pair : Pair) : strictness.Agree pair.target pair.source ↔
      strictness.Agree pair.source pair.target := ⟨.symm, .symm⟩
  simp only [compare_eq_ok_iff, List.forall_mem_map, flip, swapped, List.length_map]

theorem ofItems_flip (source target : List Value) :
    ofItems target source = (ofItems source target).map flip := by
  rw [ofItems, ofItems, ← List.zip_swap, List.zipIdx_map, List.map_map, List.map_map]
  rfl

theorem nodup_ofMembers (distinct : (source.map (·.1)).Nodup) (target : List (String × Value)) :
    (ofMembers source target).Nodup := by
  refine distinct.of_map.filterMap ?_
  rintro ⟨name, value⟩ ⟨_, _⟩ pair first second
  obtain ⟨_, -, rfl⟩ := Option.map_eq_some_iff.mp first
  obtain ⟨_, -, same⟩ := Option.map_eq_some_iff.mp second
  cases same
  rfl

theorem flip_mem_ofMembers (sourceDistinct : (source.map (·.1)).Nodup)
    (targetDistinct : (target.map (·.1)).Nodup) {pair : Pair}
    (member : pair ∈ ofMembers source target) : pair.flip ∈ ofMembers target source := by
  obtain ⟨name, a, b, inSource, found, rfl⟩ := (mem_ofMembers_iff source target pair).mp member
  have inTarget := (Value.lookup_eq_some_iff_mem targetDistinct name b).mp found
  have foundToo := (Value.lookup_eq_some_iff_mem sourceDistinct name a).mpr inSource
  exact (mem_ofMembers_iff target source _).mpr ⟨name, b, a, inTarget, foundToo, rfl⟩

theorem ofMembers_flip (sourceDistinct : (source.map (·.1)).Nodup)
    (targetDistinct : (target.map (·.1)).Nodup) :
    (ofMembers target source).Perm ((ofMembers source target).map flip) := by
  -- Each side goes through its own order, but neither has a pair twice: members decide.
  have once := (nodup_ofMembers sourceDistinct target).map flip_injective
  rw [List.perm_ext_iff_of_nodup (nodup_ofMembers targetDistinct source) once]
  intro pair
  rw [List.mem_map]
  constructor
  · intro member
    exact ⟨pair.flip, flip_mem_ofMembers targetDistinct sourceDistinct member, rfl⟩
  · rintro ⟨other, member, rfl⟩
    exact flip_mem_ofMembers sourceDistinct targetDistinct member

theorem ofMembers_perm {otherSource otherTarget : List (String × Value)}
    (distinct : (target.map (·.1)).Nodup) (sourceReordered : source.Perm otherSource)
    (targetReordered : target.Perm otherTarget) :
    (ofMembers source target).Perm (ofMembers otherSource otherTarget) := by
  unfold ofMembers
  simp only [Value.lookup_eq_of_perm distinct targetReordered]
  exact sourceReordered.filterMap _

theorem ofDocuments_flip {source target : Value} (sourceContainer : source.IsContainer)
    (targetContainer : target.IsContainer) (sourceDistinct : source.DistinctNames)
    (targetDistinct : target.DistinctNames) :
    (ofDocuments target source).Perm ((ofDocuments source target).map flip) := by
  cases sourceContainer with
  | array items =>
    cases targetContainer with
    | array others => exact .of_eq (ofItems_flip items others)
    | object others => exact .nil
  | object members =>
    cases targetContainer with
    | array others => exact .nil
    | object others => exact ofMembers_flip sourceDistinct targetDistinct

theorem ofDocuments_perm {source target otherSource otherTarget : Value}
    (distinct : target.DistinctNames) (sameSource : source.SameMembers otherSource)
    (sameTarget : target.SameMembers otherTarget) :
    (ofDocuments source target).Perm (ofDocuments otherSource otherTarget) := by
  cases sameSource with
  | array items => cases sameTarget <;> exact .refl _
  | object sourceReordered =>
    cases sameTarget with
    | array others => exact .nil
    | object targetReordered => exact ofMembers_perm distinct sourceReordered targetReordered

end Pair

/-- Two containers compare equal both ways or neither way, for as many values, and in whatever order
their members stand. -/
theorem compareDocuments_symmetric {source target : Value} (sourceContainer : source.IsContainer)
    (targetContainer : target.IsContainer) (sourceDistinct : source.DistinctNames)
    (targetDistinct : target.DistinctNames) (strictness : Strictness) (count : Nat) :
    (compareDocuments strictness source target = .ok count ↔
      compareDocuments strictness target source = .ok count) ∧
    ∀ otherSource otherTarget : Value, source.SameMembers otherSource →
      target.SameMembers otherTarget →
      (compareDocuments strictness source target = .ok count ↔
        compareDocuments strictness otherSource otherTarget = .ok count) := by
  constructor
  · have flipped := Pair.ofDocuments_flip sourceContainer targetContainer sourceDistinct
      targetDistinct
    rw [compareDocuments, compareDocuments, Pair.compare_eq_ok_iff_of_perm flipped,
      Pair.compare_flip_eq_ok_iff]
  · intro otherSource otherTarget sameSource sameTarget
    exact Pair.compare_eq_ok_iff_of_perm
      (Pair.ofDocuments_perm targetDistinct sameSource sameTarget) strictness count

def listedShop : Value :=
  .object [("id", .string "S 1"), ("name", .string "Main"), ("extra", .string "x")]

def deliveredShop : Value := .object [("name", .string "Ma in"), ("id", .string "S1")]

theorem listedShop_compared_both_ways :
    listedShop.DistinctNames ∧ deliveredShop.DistinctNames ∧
      compareDocuments .stripped listedShop deliveredShop = .ok 2 ∧
      compareDocuments .stripped deliveredShop listedShop = .ok 2 ∧
      compareDocuments .stripped listedShop
        (.object [("id", .string "S1"), ("name", .string "Ma in")]) = .ok 2 := by
  have listedDistinct : listedShop.DistinctNames := by decide
  have deliveredDistinct : deliveredShop.DistinctNames := by decide
  have compared : compareDocuments .stripped listedShop deliveredShop = .ok 2 := rfl
  obtain ⟨bothWays, anyOrder⟩ := compareDocuments_symmetric (.object _) (.object _)
    listedDistinct deliveredDistinct .stripped 2
  have reordered := anyOrder listedShop (.object [("id", .string "S1"), ("name", .string "Ma in")])
    (.object (.refl _)) (.object (.swap _ _ _))
  exact ⟨listedDistinct, deliveredDistinct, compared, bothWays.mp compared, reordered.mp compared⟩

example :
    compareDocuments .trimmed (.object [("a", .null), ("b", .null)])
        (.object [("b", .bool true), ("a", .bool false)]) =
      .error (.valueMismatch (.name "a") .null (.bool false)) ∧
    compareDocuments .trimmed (.object [("b", .bool true), ("a", .bool false)])
        (.object [("a", .null), ("b", .null)]) =
      .error (.valueMismatch (.name "b") (.bool true) .null) := ⟨rfl, rfl⟩

end Reconcile
