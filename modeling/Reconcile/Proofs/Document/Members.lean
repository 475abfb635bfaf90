import Mathlib.Data.List.Nodup
import Reconcile.Document.Value

namespace Reconcile.Value

section

variable {β : Type} {name : String} {value : β} {before members : List (String × β)}

theorem lookup_eq_none (fresh : name ∉ members.map (·.1)) : members.lookup name = none := by
  rw [List.lookup_eq_none_iff]
  intro member listed
  have other : name ≠ member.1 := fun same =>
    fresh (List.mem_map.mpr ⟨member, listed, same.symm⟩)
  simpa using other

theorem lookup_eq_some_iff_mem (distinct : (members.map (·.1)).Nodup) (name : String) (value : β) :
    members.lookup name = some value ↔ (name, value) ∈ members := by
  induction members with
  | nil => simp
  | cons first members ih =>
    obtain ⟨firstName, firstValue⟩ := first
    obtain ⟨fresh, othersDistinct⟩ := List.nodup_cons.mp distinct
    by_cases same : name = firstName
    · subst same
      have absent : (name, value) ∉ members := fun member =>
        fresh (List.mem_map_of_mem (f := (·.1)) member)
      simp [absent, eq_comm]
    · simp [List.lookup_cons, beq_eq_false_iff_ne.mpr same, same, ih othersDistinct]

theorem lookup_eq_of_perm {others : List (String × β)} (distinct : (members.map (·.1)).Nodup)
    (reordered : members.Perm others) (name : String) :
    others.lookup name = members.lookup name := by
  have othersDistinct : (others.map (·.1)).Nodup := (reordered.map _).nodup distinct
  apply Option.ext
  intro value
  rw [lookup_eq_some_iff_mem distinct, lookup_eq_some_iff_mem othersDistinct, reordered.mem_iff]

theorem fresh_of_nodup (distinct : ((before ++ (name, value) :: members).map (·.1)).Nodup) :
    name ∉ before.map (·.1) := by
  rw [List.map_append, List.map_cons, List.nodup_append] at distinct
  exact fun member => distinct.2.2 name member name List.mem_cons_self rfl

end

theorem insertMember_append {name : String} {members : List (String × Value)}
    (fresh : name ∉ members.map (·.1)) (value : Value) :
    insertMember name value members = members ++ [(name, value)] := by
  induction members with
  | nil => rfl
  | cons member members ih =>
    rw [List.map_cons, List.mem_cons, not_or] at fresh
    rw [insertMember, if_neg (Ne.symm fresh.1), ih fresh.2, List.cons_append]

theorem foldl_insertMember {before members : List (String × Value)}
    (distinct : ((before ++ members).map (·.1)).Nodup) :
    members.foldl (fun built (name, value) => insertMember name value built) before =
      before ++ members := by
  induction members generalizing before with
  | nil => simp
  | cons member members ih =>
    obtain ⟨name, value⟩ := member
    have added := insertMember_append (fresh_of_nodup distinct) value
    have moved : before ++ (name, value) :: members = before ++ [(name, value)] ++ members := by
      simp
    rw [moved, ← added] at distinct ⊢
    exact ih distinct

theorem ofMembers_of_nodup {members : List (String × Value)}
    (distinct : (members.map (·.1)).Nodup) : ofMembers members = .object members := by
  rw [ofMembers, foldl_insertMember (by simpa using distinct), List.nil_append]

end Reconcile.Value
