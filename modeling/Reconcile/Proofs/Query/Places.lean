import Reconcile.Proofs.Json.Strings
import Reconcile.Proofs.Query.Cursor
import Reconcile.Proofs.Text.Pieces

namespace Reconcile.Query.Cursor

open Json (byte)
open Text

variable {α β σ : Type} {text rest : List Char}

theorem byte_mem {c : Char} (ascii : c.toNat < 0x80) : byte c ∈ Utf8.encodeChar c := by
  rw [Utf8.encodeChar_ascii ascii]
  exact List.mem_singleton_self _

theorem beq_byte {c d : Char} (ascii : d.toNat < 0x80) {b : UInt8}
    (member : b ∈ Utf8.encodeChar c) : (b == byte d) = (c == d) := by
  have code : (byte d).toNat = d.toNat := Utf8.toNat_ofNat (by omega)
  rw [Bool.eq_iff_iff, beq_iff_eq, beq_iff_eq]
  constructor
  · rintro rfl
    exact Char.toNat_inj.mp ((Utf8.toNat_of_mem_encodeChar (by omega) member).trans code)
  · rintro rfl
    rw [Utf8.encodeChar_ascii ascii] at member
    exact List.mem_singleton.mp member

theorem ne_byte {c d : Char} (ascii : d.toNat < 0x80) (other : c ≠ d) {b : UInt8}
    (member : b ∈ Utf8.encodeChar c) : b ≠ byte d := by
  have same := beq_byte ascii member
  rwa [beq_false_of_ne other, beq_eq_false_iff_ne] at same

theorem head?_encode_eq_iff {d : Char} (ascii : d.toNat < 0x80) (rest : List Char) :
    (Utf8.encode rest).head? = some (byte d) ↔ rest.head? = some d := by
  cases rest with
  | nil => simp [Utf8.encode]
  | cons c rest =>
    obtain ⟨first, others, written, -⟩ := Utf8.encodeChar_eq_cons c
    have same := beq_byte ascii (c := c) (b := first) (by simp [written])
    rw [Bool.eq_iff_iff, beq_iff_eq, beq_iff_eq] at same
    simpa [Utf8.encode_cons, written] using same

theorem head?_encode_cons {c : Char} (ascii : c.toNat < 0x80) (rest : List Char) :
    (Utf8.encode (c :: rest)).head? = some (byte c) :=
  (head?_encode_eq_iff ascii _).mpr rfl

theorem head?_encode_ne {d : Char} (ascii : d.toNat < 0x80) {rest : List Char}
    (other : rest.head? ≠ some d) : (Utf8.encode rest).head? ≠ some (byte d) :=
  mt (head?_encode_eq_iff ascii rest).mp other

theorem head?_ne {c : Char} (none : ∀ after, rest = c :: after → False) : rest.head? ≠ some c := by
  intro first
  obtain ⟨after, split⟩ := List.head?_eq_some_iff.mp first
  exact none after split

theorem starts_with_two_iff {c d : Char} (ascii : c.toNat < 0x80) (otherAscii : d.toNat < 0x80)
    (rest : List Char) :
    ((Utf8.encode rest).head? = some (byte c) ∧ (Utf8.encode rest)[1]? = some (byte d)) ↔
      ∃ left, rest = c :: d :: left := by
  rw [head?_encode_eq_iff ascii, List.head?_eq_some_iff]
  constructor
  · rintro ⟨⟨others, rfl⟩, second⟩
    rw [Json.encode_cons ascii, List.getElem?_cons_succ, ← List.head?_eq_getElem?,
      head?_encode_eq_iff otherAscii, List.head?_eq_some_iff] at second
    obtain ⟨left, rfl⟩ := second
    exact ⟨left, rfl⟩
  · rintro ⟨left, rfl⟩
    rw [Json.encode_cons ascii, Json.encode_cons otherAscii]
    exact ⟨⟨d :: left, rfl⟩, rfl⟩

theorem head?_encode_cons_ne_none (c : Char) (rest : List Char) :
    (Utf8.encode (c :: rest)).head? ≠ none := by
  obtain ⟨first, others, written, -⟩ := Utf8.encodeChar_eq_cons c
  simp [Utf8.encode_cons, written]

variable (text) in
/-- The number of bytes before the rest of the text. -/
def place (rest : List Char) : Nat := Utf8.size text - Utf8.size rest

theorem place_append (before after : List Char) :
    place (before ++ after) after = Utf8.size before := by
  rw [place, Utf8.size_append, Nat.add_sub_cancel_right]

theorem place_self (text : List Char) : place text text = 0 := Nat.sub_self _

theorem place_nil (text : List Char) : place text [] = Utf8.size text := rfl

theorem place_le (text rest : List Char) : place text rest ≤ Utf8.size text := Nat.sub_le _ _

theorem place_cons {c : Char} (suffix : c :: rest <:+ text) :
    place text (c :: rest) + Utf8.width c = place text rest := by
  obtain ⟨before, rfl⟩ := suffix
  have one : Utf8.size [c] = Utf8.width c := Utf8.size_cons c []
  rw [place_append, List.append_cons, place_append, Utf8.size_append, one]

theorem place_lt {left : List Char} (suffix : rest <:+ text) (further : left <:+ rest)
    (shorter : left.length < rest.length) : place text rest < place text left := by
  obtain ⟨before, rfl⟩ := suffix
  obtain ⟨between, rfl⟩ := further
  rw [place_append, ← List.append_assoc, place_append, Utf8.size_append]
  cases between with
  | nil => simp at shorter
  | cons c between =>
    have wide := Utf8.width_pos c
    rw [Utf8.size_cons]
    omega

theorem bytes_at_place (suffix : rest <:+ text) : ∃ before : List UInt8,
    Utf8.encode text = before ++ Utf8.encode rest ∧ before.length = place text rest := by
  obtain ⟨before, rfl⟩ := suffix
  exact ⟨Utf8.encode before, Utf8.encode_append before rest, (place_append before rest).symm⟩

theorem isBoundary_place (suffix : rest <:+ text) : isBoundary text (place text rest) = true := by
  obtain ⟨before, split, length⟩ := bytes_at_place suffix
  rw [isBoundary, split, ← length, List.getElem?_append_right (Nat.le_refl _), Nat.sub_self]
  cases rest with
  | nil => simp [Utf8.encode, length, place_nil]
  | cons c rest =>
    obtain ⟨first, others, written, starts, -⟩ := Utf8.encodeChar_eq_cons c
    simp [Utf8.encode_cons, written, starts]

theorem bind_at (step : Reader α) (next : α → Reader β) (cursor : Nat) :
    (step >>= next) cursor = step cursor >>= fun (result, later) => next result later := rfl

theorem bind_of_ok {step : Reader α} {cursor later : Nat} {result : α}
    (done : step cursor = .ok (result, later)) (next : α → Reader β) :
    (step >>= next) cursor = next result later := by
  rw [bind_at, done]
  rfl

theorem get_bind (next : Nat → Reader β) (cursor : Nat) :
    (get >>= next) cursor = next cursor cursor := rfl

theorem pure_bind_at (result : α) (next : α → Reader β) (cursor : Nat) :
    (pure result >>= next) cursor = next result cursor := rfl

theorem peekAt_bind (distance : Nat) (next : Option UInt8 → Reader β) (suffix : rest <:+ text) :
    (peekAt text distance >>= next) (place text rest) =
      next (Utf8.encode rest)[distance]? (place text rest) := by
  obtain ⟨before, split, length⟩ := bytes_at_place suffix
  have seen : (Utf8.encode text)[place text rest + distance]? = (Utf8.encode rest)[distance]? := by
    rw [split, ← length, List.getElem?_append_right (Nat.le_add_right _ _), Nat.add_sub_cancel_left]
  rw [← seen]
  rfl

theorem peek_bind (next : Option UInt8 → Reader β) (suffix : rest <:+ text) :
    (peek text >>= next) (place text rest) =
      next (Utf8.encode rest).head? (place text rest) := by
  rw [peek, peekAt_bind 0 next suffix, List.head?_eq_getElem?]

theorem peek_bind_of_seen {cursor : Nat} {b : UInt8} (seen : (Utf8.encode text)[cursor]? = some b)
    (next : Option UInt8 → Reader β) : (peek text >>= next) cursor = next (some b) cursor := by
  rw [← seen]
  rfl

theorem advance_at {cursor width : Nat} (inside : cursor + width ≤ Utf8.size text) :
    advance text width cursor = .ok ((), cursor + width) := by
  have moved : advance text width cursor =
      (if cursor + width ≤ Utf8.size text then (set (cursor + width) : Reader Unit)
        else throw (.trap .outside)) cursor := rfl
  rw [moved, if_pos inside]
  rfl

theorem advance_width_bind {c : Char} (next : Unit → Reader β) (suffix : c :: rest <:+ text) :
    (advance text (Utf8.width c) >>= next) (place text (c :: rest)) =
      next () (place text rest) := by
  have ahead := place_cons suffix
  have inside := place_le text rest
  rw [bind_of_ok (advance_at (by omega)), ahead]

theorem advance_bind {c : Char} (ascii : c.toNat < 0x80) (next : Unit → Reader β)
    (suffix : c :: rest <:+ text) :
    (advance text 1 >>= next) (place text (c :: rest)) = next () (place text rest) := by
  rw [← Utf8.width_ascii ascii, advance_width_bind next suffix]

theorem advance_two_bind {c d : Char} (ascii : c.toNat < 0x80) (otherAscii : d.toNat < 0x80)
    (next : Unit → Reader β) (suffix : c :: d :: rest <:+ text) :
    (advance text 2 >>= next) (place text (c :: d :: rest)) = next () (place text rest) := by
  have first := place_cons suffix
  have second := place_cons ((List.suffix_cons c (d :: rest)).trans suffix)
  have inside := place_le text rest
  rw [Utf8.width_ascii ascii] at first
  rw [Utf8.width_ascii otherAscii] at second
  rw [bind_of_ok (advance_at (by omega)), ← second, ← first]

theorem slice_bind {piece : List Char} (next : List Char → Reader β)
    (suffix : piece ++ rest <:+ text) (cursor : Nat) :
    (slice text (place text (piece ++ rest)) (place text rest) >>= next) cursor =
      next piece cursor := by
  have restSuffix : rest <:+ text := (List.suffix_append piece rest).trans suffix
  have bounds := And.intro (isBoundary_place suffix) (isBoundary_place restSuffix)
  obtain ⟨before, rfl⟩ := suffix
  have first := place_append before (piece ++ rest)
  have last := place_append (before ++ piece) rest
  rw [List.append_assoc] at last
  have ordered : place (before ++ (piece ++ rest)) (piece ++ rest) ≤
      place (before ++ (piece ++ rest)) rest := by
    rw [first, last, Utf8.size_append]
    exact Nat.le_add_right _ _
  have cut : ((Utf8.encode (before ++ (piece ++ rest))).take
      (place (before ++ (piece ++ rest)) rest)).drop
        (place (before ++ (piece ++ rest)) (piece ++ rest)) = Utf8.encode piece := by
    rw [first, last, ← List.append_assoc, Utf8.encode_append, Utf8.size, Utf8.size,
      List.take_left, Utf8.encode_append, List.drop_left]
  rw [slice, if_pos ⟨ordered, bounds⟩, cut, Utf8.decode_encode]
  rfl

theorem slice_ahead_bind (next : List Char → Reader β) (suffix : rest <:+ text) (cursor : Nat) :
    (slice text (place text rest) (Utf8.size text) >>= next) cursor = next rest cursor := by
  rw [← List.append_nil rest] at suffix
  have all := slice_bind next suffix cursor
  rwa [List.append_nil, place_nil] at all

variable (text) in
def proceed (round : σ → Reader (Round σ α)) (start : Nat) : Round σ α → Reader α
  | .leave result => pure result
  | .again state => fun cursor =>
    if start < cursor ∧ cursor ≤ Utf8.size text then loop text round state cursor
    else .error (.trap .idle)

theorem loop_at (round : σ → Reader (Round σ α)) (state : σ) (cursor : Nat) :
    loop text round state cursor = (round state >>= proceed text round cursor) cursor := by
  rw [loop, loopFrom, bind_at]
  cases done : round state cursor with
  | error halt => rfl
  | ok outcome =>
    obtain ⟨again | leave, next⟩ := outcome <;> rfl

theorem proceed_ahead {round : σ → Reader (Round σ α)} (state : σ) {start cursor : Nat}
    (ahead : start < cursor) (inside : cursor ≤ Utf8.size text) :
    proceed text round start (.again state) cursor = loop text round state cursor :=
  if_pos ⟨ahead, inside⟩

theorem proceed_again {round : σ → Reader (Round σ α)} (state : σ) {left : List Char}
    (suffix : rest <:+ text) (further : left <:+ rest) (shorter : left.length < rest.length) :
    proceed text round (place text rest) (.again state) (place text left) =
      loop text round state (place text left) :=
  proceed_ahead state (place_lt suffix further shorter) (place_le text left)

/-- A loop moves over bytes at each of which it makes a step and stays as it is. -/
theorem loop_over_bytes {round : σ → Reader (Round σ α)} {state : σ} {piece : List UInt8}
    (passes : ∀ b ∈ piece, ∀ cursor, (Utf8.encode text)[cursor]? = some b →
      round state cursor = (advance text 1 >>= fun _ => pure (.again state)) cursor)
    {before after : List UInt8} (split : Utf8.encode text = before ++ (piece ++ after)) :
    loop text round state before.length = loop text round state (before ++ piece).length := by
  induction piece generalizing before with
  | nil => rw [List.append_nil]
  | cons b piece ih =>
    rw [List.forall_mem_cons] at passes
    have seen : (Utf8.encode text)[before.length]? = some b := by
      rw [split, List.getElem?_append_right (Nat.le_refl _), Nat.sub_self]
      rfl
    have inside : before.length + 1 ≤ Utf8.size text := by
      rw [Utf8.size, split]
      simp
    have stepped : round state before.length = .ok (.again state, before.length + 1) := by
      rw [passes.1 _ seen, bind_of_ok (advance_at inside)]
      rfl
    have further : Utf8.encode text = (before ++ [b]) ++ (piece ++ after) := by
      rw [split]
      simp
    have others := ih passes.2 further
    rw [loop_at, bind_of_ok stepped, proceed_ahead state (Nat.lt_succ_self _) inside]
    simpa using others

theorem loop_over_char {round : σ → Reader (Round σ α)} {state : σ} {c : Char}
    (passes : ∀ b ∈ Utf8.encodeChar c, ∀ cursor, (Utf8.encode text)[cursor]? = some b →
      round state cursor = (advance text 1 >>= fun _ => pure (.again state)) cursor)
    (suffix : c :: rest <:+ text) :
    loop text round state (place text (c :: rest)) = loop text round state (place text rest) := by
  obtain ⟨before, split, length⟩ := bytes_at_place suffix
  rw [Utf8.encode_cons] at split
  rw [← length, loop_over_bytes passes split, List.length_append, length, ← place_cons suffix]
  rfl

/-- The bytes of a character are accepted if and only if it is itself. -/
def Reads (go : UInt8 → Bool) (kind : Char → Bool) : Prop :=
  ∀ c, ∀ b ∈ Utf8.encodeChar c, go b = kind c

theorem skipWhile_at {go : UInt8 → Bool} {kind : Char → Bool} (reads : Reads go kind)
    (suffix : rest <:+ text) :
    skipWhile text go (place text rest) = .ok ((), place text (rest.dropWhile kind)) := by
  rw [skipWhile]
  induction rest with
  | nil =>
    rw [loop_at, skipRound, bind_assoc, peek_bind _ suffix]
    rfl
  | cons c rest ih =>
    by_cases accepted : kind c = true
    · rw [loop_over_char (fun b member cursor seen => ?_) suffix,
        ih ((List.suffix_cons c rest).trans suffix), List.dropWhile_cons_of_pos accepted]
      rw [skipRound, peek_bind_of_seen seen]
      simp only [reads c b member, accepted, reduceIte]
    · obtain ⟨first, others, written, -⟩ := Utf8.encodeChar_eq_cons c
      have refused : go first = false := by
        rw [reads c first (by simp [written]), Bool.eq_false_iff]
        exact accepted
      rw [loop_at, skipRound, bind_assoc, peek_bind _ suffix, Utf8.encode_cons, written,
        List.dropWhile_cons_of_neg accepted]
      simp only [List.cons_append, List.head?_cons, refused, Bool.false_eq_true, reduceIte]
      rfl

theorem skipWhile_bind {go : UInt8 → Bool} {kind : Char → Bool} (reads : Reads go kind)
    (next : Unit → Reader β) (suffix : rest <:+ text) :
    (skipWhile text go >>= next) (place text rest) =
      next () (place text (rest.dropWhile kind)) :=
  bind_of_ok (skipWhile_at reads suffix) next

theorem skipWhile_run_bind {go : UInt8 → Bool} {kind : Char → Bool} (reads : Reads go kind)
    {run : List Char} (all : ∀ c ∈ run, kind c = true) (stops : Stops kind rest)
    (next : Unit → Reader β) (suffix : run ++ rest <:+ text) :
    (skipWhile text go >>= next) (place text (run ++ rest)) = next () (place text rest) := by
  have spanned := span_append all stops
  rw [List.span_eq_takeWhile_dropWhile, Prod.mk.injEq] at spanned
  rw [skipWhile_bind reads next suffix, spanned.2]

theorem skipSpaces_bind (next : Unit → Reader β) (suffix : rest <:+ text) :
    (skipSpaces text >>= next) (place text rest) =
      next () (place text (Query.skipSpaces rest)) :=
  skipWhile_bind (fun _ _ member => beq_byte (by decide) member) next suffix

end Reconcile.Query.Cursor
