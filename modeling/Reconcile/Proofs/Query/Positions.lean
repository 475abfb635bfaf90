import Reconcile.Proofs.Query.RoundTrip
import Reconcile.Query.Eval

namespace Reconcile

namespace Query

/-- The place that a number means in a list of this length: below zero it counts from the end. -/
def placeOf (n : Int) (length : Nat) : Int := if n < 0 then length + n else n

/-- The place that a bound means, moved into the list. -/
def boundOf (bound : Int) (length : Nat) : Int := max 0 (min (placeOf bound length) length)

theorem clamp_eq (bound : Int) (length : Nat) :
    (clamp bound length : Int) = boundOf bound length := by
  simp only [clamp, boundOf, placeOf]
  split <;> omega

theorem clamp_le (bound : Int) (length : Nat) : clamp bound length ≤ length := Nat.min_le_right _ _

theorem position?_eq_some_iff (index : Int) (length position : Nat) :
    position? index length = some position ↔
      placeOf index length = position ∧ position < length := by
  simp only [position?, placeOf]
  split <;> split <;> simp <;> omega

theorem position?_eq_none_iff (index : Int) (length : Nat) :
    position? index length = none ↔ index < -length ∨ length ≤ index := by
  simp only [position?]
  split <;> simp <;> omega

def isBetween (first last : Int) (position : Nat) : Bool := first ≤ position ∧ position < last

def between {α : Type} (first last : Int) (items : List α) : List α :=
  (items.zipIdx.filter fun item => isBetween first last item.2).map (·.1)

theorem between_eq {α : Type} (first last : Nat) (items : List α) :
    between first last items = (items.take last).drop first := by
  -- The bounds move along with the position of the first item.
  have shifted (start : Nat) :
      ((items.zipIdx start).filter fun item => isBetween first last item.2).map (·.1) =
        (items.take (last - start)).drop (first - start) := by
    induction items generalizing start with
    | nil => simp
    | cons item items ih =>
      rw [List.zipIdx_cons, List.filter_cons]
      by_cases inside : first ≤ start ∧ start < last
      · obtain ⟨reached, goesOn⟩ := inside
        have kept : isBetween first last start = true := by simp [isBetween, reached, goesOn]
        have noSkip : first - (start + 1) = 0 := by omega
        have more : last - start = last - (start + 1) + 1 := by omega
        rw [if_pos kept, List.map_cons, ih, noSkip, more, Nat.sub_eq_zero_of_le reached]
        rfl
      · have left : isBetween first last start ≠ true := by simpa [isBetween] using inside
        rw [if_neg left, ih]
        by_cases ended : last ≤ start
        · simp [Nat.sub_eq_zero_of_le ended, Nat.sub_eq_zero_of_le (Nat.le_succ_of_le ended)]
        · have skip : first - start = first - (start + 1) + 1 := by omega
          have more : last - start = last - (start + 1) + 1 := by omega
          rw [skip, more]
          rfl
  exact shifted 0

theorem sliceOf_eq {α : Type} (start stop : Option Int) (items : List α) :
    sliceOf start stop items =
      between (start.elim 0 (boundOf · items.length))
        (stop.elim items.length (boundOf · items.length)) items := by
  have first : start.elim 0 (boundOf · items.length) =
      ((start.elim 0 (clamp · items.length) : Nat) : Int) := by
    cases start with
    | none => rfl
    | some bound => exact (clamp_eq bound items.length).symm
  have last : stop.elim (items.length : Int) (boundOf · items.length) =
      ((stop.elim items.length (clamp · items.length) : Nat) : Int) := by
    cases stop with
    | none => rfl
    | some bound => exact (clamp_eq bound items.length).symm
  rw [first, last, between_eq, sliceOf]

theorem sliceOf_append {α : Type} (bound : Int) (items : List α) :
    sliceOf none (some bound) items ++ sliceOf (some bound) none items = items := by
  simp [sliceOf]

def word? (n : Int) : Option Int := if IsSigned64 n then some n else none

def wordPlace? (n : Int) (length : Nat) : Option Int :=
  if n < 0 then word? (length + n) else some n

theorem wordPlace?_eq {n : Int} {length : Nat} (fits : IsSigned64 n)
    (lengthFits : IsSigned64 length) : wordPlace? n length = some (placeOf n length) := by
  have low := fits.1
  have high := lengthFits.2
  rw [wordPlace?, placeOf]
  split
  · have sumFits : IsSigned64 (length + n) := ⟨by omega, by omega⟩
    rw [word?, if_pos sumFits]
  · rfl

variable {α : Type} (items : List α)

/-- The item at an index, computed in words; `none` if a sum is no word or no item is where one is
looked for. A list of more items than words can count has none at any index. -/
def indexInWords? (index : Int) : Option (List α) :=
  if IsSigned64 items.length then do
    let position ← wordPlace? index items.length
    if 0 ≤ position ∧ position < items.length then items[position.toNat]?.map ([·]) else some []
  else some []

def clampInWords? (bound : Int) (length : Nat) : Option Nat := do
  let length := min length (twoTo 63 - 1)
  let position ← wordPlace? bound length
  return (max 0 (min position length)).toNat

def range? (first last : Nat) : Option (List α) :=
  if first ≤ last ∧ last ≤ items.length then some ((items.take last).drop first) else none

/-- The items between two bounds, computed in words; `none` if a sum is no word or a position is
outside of the list. -/
def sliceInWords? (start stop : Option Int) : Option (List α) := do
  let first ← start.elim (some 0) (clampInWords? · items.length)
  let last ← stop.elim (some items.length) (clampInWords? · items.length)
  if first < last then range? items first last else return []

def itemAt (index : Int) : List α :=
  match position? index items.length with
  | some position => items[position]?.toList
  | none => []

theorem indexInWords?_eq {index : Int} (fits : IsSigned64 index) :
    ∃ found, indexInWords? items index = some found ∧
      (IsSigned64 items.length → found = itemAt items index) := by
  by_cases lengthFits : IsSigned64 items.length
  · refine ⟨itemAt items index, ?_, fun _ => rfl⟩
    rw [indexInWords?, if_pos lengthFits, wordPlace?_eq fits lengthFits, itemAt]
    cases found : position? index items.length with
    | none =>
      have outside : ¬(0 ≤ placeOf index items.length ∧
          placeOf index items.length < items.length) := by
        have missed := (position?_eq_none_iff index items.length).mp found
        rw [placeOf]
        split <;> omega
      simp [outside]
    | some position =>
      obtain ⟨place, inside⟩ := (position?_eq_some_iff index items.length position).mp found
      simp [place, inside]
  · exact ⟨[], by rw [indexInWords?, if_neg lengthFits], fun fits => absurd fits lengthFits⟩

theorem clampInWords?_eq {bound : Int} (fits : IsSigned64 bound) (length : Nat) :
    ∃ place ≤ length, clampInWords? bound length = some place ∧
      (IsSigned64 length → place = clamp bound length) := by
  have counted : IsSigned64 (min length (twoTo 63 - 1) : Nat) := by
    have bits : twoTo 63 = 9223372036854775808 := rfl
    constructor <;> omega
  refine ⟨clamp bound (min length (twoTo 63 - 1)), ?_, ?_, fun lengthFits => ?_⟩
  · exact Nat.le_trans (clamp_le _ _) (Nat.min_le_left _ _)
  · have same := clamp_eq bound (min length (twoTo 63 - 1))
    rw [boundOf] at same
    rw [clampInWords?, wordPlace?_eq fits counted]
    simp only [Option.bind_eq_bind, Option.bind_some, Option.pure_def, ← same, Int.toNat_natCast]
  · have short : min length (twoTo 63 - 1) = length := by
      have high := lengthFits.2
      omega
    rw [short]

theorem sliceInWords?_eq {start stop : Option Int} (startFits : ∀ n ∈ start, IsSigned64 n)
    (stopFits : ∀ n ∈ stop, IsSigned64 n) :
    ∃ found, sliceInWords? items start stop = some found ∧
      (IsSigned64 items.length → found = sliceOf start stop items) := by
  have firstBound : ∃ first ≤ items.length,
      start.elim (some 0) (clampInWords? · items.length) = some first ∧
        (IsSigned64 items.length → first = start.elim 0 (clamp · items.length)) := by
    cases start with
    | none => exact ⟨0, Nat.zero_le _, rfl, fun _ => rfl⟩
    | some n => exact clampInWords?_eq (startFits n rfl) items.length
  have lastBound : ∃ last ≤ items.length,
      stop.elim (some items.length) (clampInWords? · items.length) = some last ∧
        (IsSigned64 items.length → last = stop.elim items.length (clamp · items.length)) := by
    cases stop with
    | none => exact ⟨items.length, Nat.le_refl _, rfl, fun _ => rfl⟩
    | some n => exact clampInWords?_eq (stopFits n rfl) items.length
  obtain ⟨first, -, firstFound, firstSame⟩ := firstBound
  obtain ⟨last, inside, lastFound, lastSame⟩ := lastBound
  refine ⟨(items.take last).drop first, ?_, fun lengthFits => ?_⟩
  · rw [sliceInWords?, firstFound, lastFound]
    by_cases some : first < last
    · simp [range?, some, Nat.le_of_lt some, inside]
    · have none : (items.take last).drop first = [] := by simp; omega
      simp [some, none]
  · rw [sliceOf, ← firstSame lengthFits, ← lastSame lengthFits]

variable (location : List Step) (items : List Value)

def indexed (index : Int) : List Node := Selector.select ⟨location, .array items⟩ (.index index)

def sliced (start stop : Option Int) : List Node :=
  Selector.select ⟨location, .array items⟩ (.slice start stop)

structure PositionLaws : Prop where
  index_found : ∀ (index : Int) (position : Nat) (inside : position < items.length),
    (0 ≤ index ∧ index = position) ∨ (index < 0 ∧ items.length + index = position) →
      indexed location items index = [⟨location ++ [.index position], items[position]⟩]
  index_missed : ∀ index : Int, index < -items.length ∨ items.length ≤ index →
    indexed location items index = []
  slice : ∀ start stop, sliced location items start stop =
    between (start.elim 0 (boundOf · items.length))
      (stop.elim items.length (boundOf · items.length)) (itemNodes location items)
  /-- Every sum for an index is a word, and there is an item where one is looked for. -/
  index_safe : ∀ index, IsSigned64 index →
    ∃ found, indexInWords? (itemNodes location items) index = some found ∧
      (IsSigned64 items.length → found = indexed location items index)
  /-- Every sum for a bound is a word, and no part reaches over the end of the list. -/
  slice_safe : ∀ start stop, (∀ n ∈ start, IsSigned64 n) → (∀ n ∈ stop, IsSigned64 n) →
    ∃ found, sliceInWords? (itemNodes location items) start stop = some found ∧
      (IsSigned64 items.length → found = sliced location items start stop)
  split : ∀ bound, sliced location items none (some bound) ++
    sliced location items (some bound) none = itemNodes location items
  head : ∀ index node, indexed location items index = [node] →
    (sliced location items (some index) none).head? = some node

@[simp] theorem length_itemNodes : (itemNodes location items).length = items.length := by
  simp [itemNodes]

theorem indexed_eq (index : Int) :
    indexed location items index = itemAt (itemNodes location items) index := by
  cases found : position? index items.length <;> simp [indexed, Selector.select, itemAt, found]

theorem sliced_eq (start stop : Option Int) :
    sliced location items start stop = sliceOf start stop (itemNodes location items) := by
  rw [sliced, Selector.select]

theorem positionLaws : PositionLaws location items where
  index_found index position inside place := by
    have found : position? index items.length = some position := by
      rw [position?_eq_some_iff, placeOf]
      refine ⟨?_, inside⟩
      rcases place with ⟨fromStart, same⟩ | ⟨fromEnd, same⟩
      · rw [if_neg (Int.not_lt.mpr fromStart), same]
      · rw [if_pos fromEnd, same]
    simp [indexed_eq, itemAt, found, itemNodes, inside]
  index_missed index outside := by
    have none := (position?_eq_none_iff index items.length).mpr outside
    simp [indexed_eq, itemAt, none]
  slice start stop := by rw [sliced_eq, sliceOf_eq, length_itemNodes]
  index_safe index fits := by
    have safe := indexInWords?_eq (itemNodes location items) fits
    rwa [length_itemNodes, ← indexed_eq] at safe
  slice_safe start stop startFits stopFits := by
    have safe := sliceInWords?_eq (itemNodes location items) startFits stopFits
    rwa [length_itemNodes, ← sliced_eq] at safe
  split bound := by rw [sliced_eq, sliced_eq, sliceOf_append]
  head index node here := by
    rw [indexed_eq, itemAt, length_itemNodes] at here
    cases found : position? index items.length with
    | none => simp [found] at here
    | some position =>
      obtain ⟨place, inside⟩ := (position?_eq_some_iff index items.length position).mp found
      have start : clamp index items.length = position := by
        have same := clamp_eq index items.length
        rw [boundOf, place] at same
        omega
      have whole : (itemNodes location items).take items.length = itemNodes location items :=
        List.take_of_length_le (Nat.le_of_eq (length_itemNodes location items))
      rw [sliced_eq, sliceOf, Option.elim_some, Option.elim_none, length_itemNodes, start, whole]
      simpa [found] using here

def bracketed (item : Selector) : Path := ⟨[.child item]⟩

def indexText (index : Int) : String := "$[" ++ index.repr ++ "]"

def boundText (bound : Option Int) : String := bound.elim "" Int.repr

def sliceText (start stop : Option Int) : String :=
  "$[" ++ boundText start ++ ":" ++ boundText stop ++ "]"

theorem toList_boundText (bound : Option Int) : (boundText bound).toList = writeBound bound := by
  cases bound with
  | none => rfl
  | some n => exact (Text.renderInt_eq n).symm

theorem parse_bracketed (item : Selector) (isItem : item.IsItem) (plain : item.literal? = none)
    {text : String} (written : text.toList = '$' :: '[' :: (item.writeItem ++ [']'])) :
    Path.parse text = .ok (bracketed item) := by
  have alone : item.items = [item] := by
    cases item with
    | union items => exact absurd isItem id
    | _ => rfl
  have sound := (Selector.SoundItem.of_plain isItem plain).sound
  have same : text = (bracketed item).write := by
    rw [← String.toList_inj, written]
    simp [bracketed, Path.write, Segment.write, Selector.write, alone, Text.join]
  rw [same]
  refine Path.parse_write ?_ ?_
  · exact List.forall_mem_singleton.mpr sound.wellFormed
  · intro literal member
    obtain ⟨segment, inPath, other, inSegment, here⟩ := (Path.mem_literals_iff _ _).mp member
    rw [List.mem_singleton.mp inPath, Segment.selector, alone, List.mem_singleton] at inSegment
    rw [inSegment, plain] at here
    cases here

theorem parse_indexText {index : Int} (fits : IsSigned64 index) :
    Path.parse (indexText index) = .ok (bracketed (.index index)) :=
  parse_bracketed (.index index) fits rfl
    (by simp [indexText, Selector.writeItem, Text.renderInt_eq])

theorem parse_sliceText {start stop : Option Int} (startFits : ∀ n ∈ start, IsSigned64 n)
    (stopFits : ∀ n ∈ stop, IsSigned64 n) :
    Path.parse (sliceText start stop) = .ok (bracketed (.slice start stop)) :=
  parse_bracketed (.slice start stop) ⟨startFits, stopFits⟩ rfl
    (by simp [sliceText, Selector.writeItem, toList_boundText])

/-- Every index and every slice with 64-bit numbers can be written, and finds the items at its
places in every list. -/
theorem positions_exact :
    (∀ index, IsSigned64 index →
      Path.parse (indexText index) = .ok (bracketed (.index index))) ∧
    (∀ start stop, (∀ n ∈ start, IsSigned64 n) → (∀ n ∈ stop, IsSigned64 n) →
      Path.parse (sliceText start stop) = .ok (bracketed (.slice start stop))) ∧
    ∀ location items, PositionLaws location items :=
  ⟨fun _ => parse_indexText, fun _ _ => parse_sliceText, positionLaws⟩

theorem smallestWord_positions :
    IsSigned64 (-9223372036854775808) ∧
      Path.parse "$[-9223372036854775808]" = .ok (bracketed (.index (-9223372036854775808))) ∧
      indexed [] [.null, .bool true] (-9223372036854775808) = [] ∧
      sliced [] [.null, .bool true] (some (-9223372036854775808)) (some (-1)) =
        [⟨[.index 0], .null⟩] := by
  have fits : IsSigned64 (-9223372036854775808) := by decide
  have written : indexText (-9223372036854775808) = "$[-9223372036854775808]" := by decide
  have first : boundOf (-9223372036854775808) 2 = 0 := by decide
  have last : boundOf (-1) 2 = 1 := by decide
  obtain ⟨indexRead, -, laws⟩ := positions_exact
  refine ⟨fits, written ▸ indexRead _ fits, (laws _ _).index_missed _ (.inl (by decide)), ?_⟩
  rw [(laws _ _).slice]
  simp only [Option.elim_some, List.length_cons, List.length_nil, Nat.reduceAdd, first, last]
  rfl

end Query

end Reconcile
