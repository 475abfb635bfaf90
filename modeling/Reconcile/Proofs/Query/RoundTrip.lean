import Reconcile.Proofs.Query.Reading

namespace Reconcile

namespace Query

def Literal.Fits : Literal → Prop
  | .number n => Json.Fits n
  | _ => True

structure Selector.SoundItem (item : Selector) : Prop where
  isItem : item.IsItem
  fits : ∀ literal ∈ item.literal?, literal.Fits

structure Selector.Sound (selector : Selector) : Prop where
  wellFormed : selector.WellFormed
  fits : ∀ item ∈ selector.items, ∀ literal ∈ item.literal?, literal.Fits

theorem Selector.SoundItem.of_plain {item : Selector} (isItem : item.IsItem)
    (plain : item.literal? = none) : item.SoundItem :=
  ⟨isItem, by simp [plain]⟩

theorem Selector.SoundItem.sound {item : Selector} (sound : item.SoundItem) : item.Sound := by
  obtain ⟨isItem, fits⟩ := sound
  cases item with
  | union items => exact absurd isItem id
  | _ => exact ⟨isItem, List.forall_mem_singleton.mpr fits⟩

theorem sound_ofItems {items : List Selector} (someItem : items ≠ [])
    (sound : ∀ item ∈ items, item.SoundItem) : (Selector.ofItems items).Sound := by
  match items, someItem with
  | [item], _ => exact (sound item List.mem_cons_self).sound
  | first :: second :: items, _ =>
    refine ⟨⟨by simp, fun item member => (sound item member).isItem⟩, ?_⟩
    exact fun item member => (sound item member).fits

section

variable {input rest : List Char}

theorem isSigned64_of_readInteger {bound : Option Int}
    (found : readInteger input = .ok (bound, rest)) : ∀ n ∈ bound, IsSigned64 n := by
  have least : 0 < (twoTo 63 : Int) := by decide
  unfold readInteger at found
  dsimp only at found
  split at found
  · split at found <;> cases found
    simp
  · refine Fallible.of_ite found (fun found => ?_) fun found => ?_
    · split at found <;> cases found
      rintro n ⟨⟩
      exact ⟨by omega, by omega⟩
    · split at found <;> cases found
      rintro n ⟨⟩
      exact ⟨by omega, by omega⟩

theorem sound_of_readIndexOrSlice {item : Selector}
    (found : readIndexOrSlice input = .ok (item, rest)) : item.SoundItem := by
  rw [readIndexOrSlice, Fallible.bind_eq_ok_iff] at found
  obtain ⟨⟨start, rest⟩, first, found⟩ := found
  dsimp only at found
  split at found
  · rw [Fallible.bind_eq_ok_iff] at found
    obtain ⟨⟨last, rest⟩, second, found⟩ := found
    dsimp only at found
    split at found
    · cases found
    · cases found
      have bounds := And.intro (isSigned64_of_readInteger first) (isSigned64_of_readInteger second)
      exact .of_plain bounds rfl
  · cases found
    exact .of_plain (isSigned64_of_readInteger first _ rfl) rfl
  · cases found

theorem fits_of_bareLiteral? {word : List Char} {literal : Literal}
    (found : bareLiteral? word = some literal) : literal.Fits := by
  unfold bareLiteral? at found
  split at found
  · cases found
    exact True.intro
  · cases found
    exact True.intro
  · rename_i number
    cases found
    exact Json.fits_of_read number
  · cases found

theorem fits_of_readLiteral {literal : Literal}
    (found : readLiteral input = .ok (literal, rest)) : literal.Fits := by
  unfold readLiteral at found
  dsimp only at found
  split at found
  · refine Fallible.of_ite found (fun quoted => ?_) fun bare => ?_
    · obtain ⟨text, -, same⟩ := (Fallible.map_eq_ok_iff _ _ _).mp quoted
      cases same
      exact True.intro
    · split at bare
      · rename_i denoted
        cases bare
        exact fits_of_bareLiteral? denoted
      · cases bare
  · -- The empty word denotes nothing.
    cases found

theorem fits_of_readTest {comparison : Comparison} {literal : Literal}
    (found : readTest input = .ok (some (comparison, literal), rest)) : literal.Fits := by
  unfold readTest at found
  split at found
  · cases found
  · simp only [Fallible.bind_eq_ok_iff] at found
    obtain ⟨compared, -, ⟨literal, rest⟩, literalRead, close, -, found⟩ := found
    cases found
    exact fits_of_readLiteral literalRead

theorem sound_of_readFilter {item : Selector} (found : readFilter input = .ok (item, rest)) :
    item.SoundItem := by
  simp only [readFilter, Fallible.bind_eq_ok_iff] at found
  obtain ⟨_, -, _, -, ⟨field, _⟩, -, ⟨test, _⟩, testRead, found⟩ := found
  cases found
  refine ⟨True.intro, ?_⟩
  cases test with
  | none => rintro _ ⟨⟩
  | some test =>
    rintro _ ⟨⟩
    exact fits_of_readTest testRead

theorem sound_of_readItem {item : Selector} (found : readItem input = .ok (item, rest)) :
    item.SoundItem := by
  unfold readItem at found
  split at found
  · cases found
  · cases found
    exact .of_plain True.intro rfl
  · exact sound_of_readFilter found
  · cases found
  · refine Fallible.of_ite found (fun quoted => ?_) sound_of_readIndexOrSlice
    obtain ⟨text, -, same⟩ := (Fallible.map_eq_ok_iff _ _ _).mp quoted
    cases same
    exact .of_plain True.intro rfl

theorem sound_of_readItems {fuel : Nat} {items : List Selector}
    (found : readItems fuel input = .ok (items, rest)) :
    items ≠ [] ∧ ∀ item ∈ items, item.SoundItem := by
  induction fuel generalizing input items with
  | zero => cases found
  | succ fuel ih =>
    rw [readItems, Fallible.bind_eq_ok_iff] at found
    obtain ⟨⟨item, after⟩, itemRead, found⟩ := found
    have sound := sound_of_readItem itemRead
    dsimp only at found
    split at found
    · rw [Fallible.bind_eq_ok_iff] at found
      obtain ⟨⟨others, left⟩, othersRead, found⟩ := found
      cases found
      exact ⟨List.cons_ne_nil item others, List.forall_mem_cons.mpr ⟨sound, (ih othersRead).2⟩⟩
    · cases found
      exact ⟨List.cons_ne_nil item [], List.forall_mem_singleton.mpr sound⟩
    · cases found
    · cases found

theorem sound_of_readBracket {selector : Selector}
    (found : readBracket input = .ok (selector, rest)) : selector.Sound := by
  obtain ⟨⟨items, _⟩, itemsRead, same⟩ := (Fallible.map_eq_ok_iff _ _ _).mp found
  cases same
  obtain ⟨someItem, sound⟩ := sound_of_readItems itemsRead
  exact sound_ofItems someItem sound

theorem sound_of_readDotted {selector : Selector}
    (found : readDotted input = .ok (selector, rest)) : selector.Sound := by
  unfold readDotted at found
  split at found
  · cases found
    exact Selector.SoundItem.sound (.of_plain True.intro rfl)
  · obtain ⟨name, -, same⟩ := (Fallible.map_eq_ok_iff _ _ _).mp found
    cases same
    exact Selector.SoundItem.sound (.of_plain True.intro rfl)

theorem sound_of_readSegment {segment : Segment}
    (found : readSegment input = .ok (segment, rest)) : segment.selector.Sound := by
  unfold readSegment at found
  split at found
  -- Two alternatives open a bracket, two go on after a dot, two are faults.
  case h_1 | h_4 =>
    obtain ⟨selector, selectorRead, same⟩ := (Fallible.map_eq_ok_iff _ _ _).mp found
    cases same
    exact sound_of_readBracket selectorRead
  case h_2 | h_3 =>
    obtain ⟨selector, selectorRead, same⟩ := (Fallible.map_eq_ok_iff _ _ _).mp found
    cases same
    exact sound_of_readDotted selectorRead
  case h_5 | h_6 => cases found

end

theorem sound_of_readSegments {fuel : Nat} {input : List Char} {segments : List Segment}
    (found : readSegments fuel input = .ok segments) :
    ∀ segment ∈ segments, segment.selector.Sound := by
  induction fuel generalizing input segments with
  | zero =>
    cases input with
    | nil =>
      cases found
      simp
    | cons c input => cases found
  | succ fuel ih =>
    cases input with
    | nil =>
      cases found
      simp
    | cons c input =>
      simp only [readSegments, Fallible.bind_eq_ok_iff] at found
      obtain ⟨⟨segment, after⟩, segmentRead, others, othersRead, found⟩ := found
      cases found
      exact List.forall_mem_cons.mpr ⟨sound_of_readSegment segmentRead, ih othersRead⟩

end Query

namespace Path

theorem sound_of_parse {text : String} {path : Path} (found : Path.parse text = .ok path) :
    ∀ segment ∈ path.segments, segment.selector.Sound := by
  unfold Path.parse at found
  cases pathRead : Query.readPath (Text.trim text.toList) with
  | error stop => simp [pathRead, Except.mapError] at found
  | ok read =>
    simp only [pathRead, Except.mapError, Except.ok.injEq] at found
    subst found
    unfold Query.readPath at pathRead
    split at pathRead
    · obtain ⟨segments, segmentsRead, same⟩ := (Fallible.map_eq_ok_iff _ _ _).mp pathRead
      cases same
      exact Query.sound_of_readSegments segmentsRead
    · cases pathRead

theorem wellFormed_of_parse {text : String} {path : Path} (found : Path.parse text = .ok path) :
    path.WellFormed := fun segment member =>
  (sound_of_parse found segment member).wellFormed

theorem fits_of_parse {text : String} {path : Path} (found : Path.parse text = .ok path) :
    ∀ literal ∈ path.literals, literal.Fits := by
  intro literal member
  obtain ⟨segment, inPath, item, inSegment, here⟩ := (mem_literals_iff path literal).mp member
  exact (sound_of_parse found segment inPath).fits item inSegment literal here

theorem readsBack_of_whole {path : Path} (fits : ∀ literal ∈ path.literals, literal.Fits)
    (whole : ∀ n, .number n ∈ path.literals → ∃ i, n = .int i) :
    ∀ literal ∈ path.literals, literal.ReadsBack := by
  intro literal member
  cases literal with
  | number n =>
    obtain ⟨i, rfl⟩ := whole n member
    exact Json.read_renderInt (fits _ member) .text
  | _ => exact True.intro

/-- What is written for a path denotes it, and each text denotes a path that can be written. -/
theorem parse_write_round_trip :
    (∀ path : Path, path.WellFormed → (∀ literal ∈ path.literals, literal.ReadsBack) →
      Path.parse path.write = .ok path) ∧
    (∀ i, IsWide i → (Query.Literal.number (.int i)).ReadsBack) ∧
    ∀ text path, Path.parse text = .ok path → path.WellFormed ∧
      ((∀ n, .number n ∈ path.literals → ∃ i, n = .int i) → Path.parse path.write = .ok path) := by
  refine ⟨fun path => parse_write, fun i wide => Json.read_renderInt wide .text, ?_⟩
  intro text path found
  have wellFormed := wellFormed_of_parse found
  refine ⟨wellFormed, fun whole => ?_⟩
  exact parse_write wellFormed (readsBack_of_whole (fits_of_parse found) whole)

end Path

def manyItems : Path where
  segments := [
    .child (.union [.name "it's", .index (-3), .slice none (some 2), .wildcard]),
    .descendant (.filter { field := ["a\\", ""], test := some (.le, .number (.int (-7))) })]

theorem manyItems_round_trip :
    manyItems.write = "$['it\\'s',-3,:2,*]..[?(@['a\\\\'][''] <= -7)]" ∧
      Path.parse manyItems.write = .ok manyItems := by
  have wellFormed : manyItems.WellFormed := by
    have indexFits : IsSigned64 (-3) := by decide
    have stopFits : IsSigned64 2 := by decide
    simp [Path.WellFormed, manyItems, Query.Segment.selector, Query.Selector.WellFormed,
      Query.Selector.IsItem, indexFits, stopFits]
  have back : ∀ literal ∈ manyItems.literals, literal.ReadsBack := by
    have least : IsWide (-7) := by decide
    intro literal member
    rw [List.mem_singleton.mp member]
    exact Path.parse_write_round_trip.2.1 (-7) least
  exact ⟨by decide, Path.parse_write_round_trip.1 manyItems wellFormed back⟩

end Reconcile
