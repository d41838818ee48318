import Bytewise.Dump.Row
import Bytewise.Proofs.Stream

/-!
# The rows of a dump

Rows regroup data if they are the data, cut at multiples of the width and numbered from the first
offset (`Regroups`). There is only one way to do that (`Regroups.unique`), so it is enough to show
of every stream that its rows regroup what was selected: then they depend neither on how the reads
are split nor on how the first bytes are passed over.

The loop carries the rows cut so far and the bytes of the next one. `Gathered` says what they are of
the bytes taken in, one piece keeps it (`Gathered.feed`), and at the end it gives the rows
(`Gathered.finish`).
-/

namespace Bytewise

/-- The rows are the data cut at multiples of the width, numbered from an offset on. -/
structure Regroups (width start : Nat) (data : Bytes) (rows : List Row) : Prop where
  covers : (rows.map Row.data).flatten = data
  full : ∀ i (h : i < rows.length), i + 1 < rows.length → rows[i].data.length = width
  nonempty : ∀ row ∈ rows, 1 ≤ row.data.length
  within : ∀ row ∈ rows, row.data.length ≤ width
  offset : ∀ i (h : i < rows.length), rows[i].offset = start + i * width

namespace Regroups

variable {width start : Nat} {data : Bytes} {row : Row} {rows : List Row}

theorem empty (width start : Nat) : Regroups width start [] [] where
  covers := rfl
  full := nofun
  nonempty := nofun
  within := nofun
  offset := nofun

theorem eq_nil (cut : Regroups width start [] rows) : rows = [] := by
  cases rows with
  | nil => rfl
  | cons row rows =>
      have nothing : row.data ++ (rows.map Row.data).flatten = [] := cut.covers
      have nonempty := cut.nonempty row List.mem_cons_self
      simp [(List.append_eq_nil_iff.mp nothing).1] at nonempty

theorem first_offset (cut : Regroups width start data (row :: rows)) : row.offset = start := by
  simpa using cut.offset 0 (Nat.zero_lt_succ _)

/-- The first row takes what it can, and the others have the rest. -/
theorem first_data (cut : Regroups width start data (row :: rows)) :
    row.data = data.take width ∧ (rows.map Row.data).flatten = data.drop width := by
  have parts : row.data ++ (rows.map Row.data).flatten = data := cut.covers
  rw [← parts]
  cases rows with
  | nil =>
      have within := cut.within row List.mem_cons_self
      simp [List.take_of_length_le within, within]
  | cons next rows =>
      have filled : row.data.length = width := cut.full 0 (by simp) (by simp)
      rw [← filled, List.take_left, List.drop_left]
      exact ⟨rfl, rfl⟩

theorem tail (cut : Regroups width start data (row :: rows)) :
    Regroups width (start + width) (data.drop width) rows where
  covers := cut.first_data.2
  full := fun i h more => cut.full (i + 1) (Nat.succ_lt_succ h) (Nat.succ_lt_succ more)
  nonempty := fun r member => cut.nonempty r (List.mem_cons_of_mem _ member)
  within := fun r member => cut.within r (List.mem_cons_of_mem _ member)
  offset := fun i h => by
    have shifted : rows[i].offset = start + (i + 1) * width :=
      cut.offset (i + 1) (Nat.succ_lt_succ h)
    rw [shifted, Nat.succ_mul]
    omega

/-- Data is regrouped in one way only. -/
theorem unique {rows' : List Row} (cut : Regroups width start data rows)
    (cut' : Regroups width start data rows') : rows = rows' := by
  induction rows generalizing start data rows' with
  | nil =>
      have nothing : [] = data := cut.covers
      subst nothing
      exact cut'.eq_nil.symm
  | cons row rows ih =>
      cases rows' with
      | nil =>
          have nothing : [] = data := cut'.covers
          subst nothing
          exact cut.eq_nil
      | cons row' rows' =>
          have offsets : row.offset = row'.offset := cut.first_offset.trans cut'.first_offset.symm
          have datas : row.data = row'.data := cut.first_data.1.trans cut'.first_data.1.symm
          have same : row = row' := by
            cases row
            cases row'
            simp_all
          rw [same, ih cut.tail cut'.tail]

end Regroups

/-! ## Cutting rows -/

/-- Full rows, in reverse, and the beginning of the next one are the bytes taken in. -/
structure Gathered (width start : Nat) (taken : Bytes) (done : List Row) (g : Grouping) : Prop where
  covers : (done.reverse.map Row.data).flatten ++ g.pending = taken
  full : ∀ row ∈ done, row.data.length = width
  offset : ∀ i (h : i < done.reverse.length), done.reverse[i].offset = start + i * width
  next : g.offset = start + done.length * width

namespace Gathered

variable {width start : Nat} {taken : Bytes} {done : List Row} {g : Grouping}

theorem start_nil (width start : Nat) : Gathered width start [] [] ⟨start, []⟩ where
  covers := rfl
  full := nofun
  offset := nofun
  next := by simp

/-- One more row, full or not, that begins where the next one is due. -/
theorem offset_push (gathered : Gathered width start taken done g) (data : Bytes) (i : Nat)
    (h : i < (done.reverse ++ [(⟨g.offset, data⟩ : Row)]).length) :
    (done.reverse ++ [(⟨g.offset, data⟩ : Row)])[i].offset = start + i * width := by
  rw [List.getElem_append]
  split
  next earlier => exact gathered.offset i earlier
  next last =>
    have this : i = done.length := by
      simp at h last
      omega
    subst this
    simpa using gathered.next

/-- A full row may be cut from the bytes at hand. -/
theorem push (gathered : Gathered width start taken done g) (enough : width ≤ g.pending.length) :
    Gathered width start taken (⟨g.offset, g.pending.take width⟩ :: done)
      ⟨g.offset + width, g.pending.drop width⟩ where
  covers := by
    rw [← gathered.covers]
    simp
  full := by
    rintro row (_ | ⟨_, earlier⟩)
    · exact (List.length_take ..).trans (Nat.min_eq_left enough)
    · exact gathered.full row earlier
  offset := by
    rw [List.reverse_cons]
    exact gathered.offset_push _
  next := by
    rw [List.length_cons, Nat.succ_mul, ← Nat.add_assoc, ← gathered.next]

theorem cut (gathered : Gathered width start taken done g) (positive : 0 < width) :
    Gathered width start taken (g.cut width done).1 (g.cut width done).2 ∧
      (g.cut width done).2.pending.length < width := by
  fun_induction Grouping.cut width done g with
  | case1 done g short => exact ⟨gathered, short.resolve_left (Nat.ne_of_gt positive)⟩
  | case2 done g more ih => exact ih (gathered.push (by omega))

theorem feed (gathered : Gathered width start taken done g) (positive : 0 < width)
    (piece : Bytes) :
    Gathered width start (taken ++ piece) (g.feed width done piece).1 (g.feed width done piece).2 ∧
      (g.feed width done piece).2.pending.length < width := by
  refine cut ⟨?_, gathered.full, gathered.offset, gathered.next⟩ positive
  rw [← gathered.covers, List.append_assoc]

/-- The full rows and what is left behind them regroup all that was taken in. -/
theorem finish (gathered : Gathered width start taken done g) (short : g.pending.length < width) :
    Regroups width start taken (g.finish done).reverse := by
  have fullRow : ∀ i (h : i < done.reverse.length), done.reverse[i].data.length = width :=
    fun i h => gathered.full _ (List.mem_reverse.mp (List.getElem_mem h))
  unfold Grouping.finish
  split
  next ended =>
    rw [List.isEmpty_iff] at ended
    refine ⟨?_, fun i h _ => fullRow i h, ?_, ?_, gathered.offset⟩
    · rw [← gathered.covers, ended, List.append_nil]
    · intro row member
      rw [gathered.full row (List.mem_reverse.mp member)]
      omega
    · intro row member
      exact Nat.le_of_eq (gathered.full row (List.mem_reverse.mp member))
  next left =>
    have pending : 1 ≤ g.pending.length := by
      rw [List.isEmpty_iff] at left
      exact List.length_pos_iff.mpr left
    rw [List.reverse_cons]
    refine ⟨?_, ?_, ?_, ?_, gathered.offset_push _⟩
    · rw [← gathered.covers]
      simp
    · intro i h more
      have earlier : i < done.reverse.length := by simpa using more
      rw [List.getElem_append_left earlier]
      exact fullRow i earlier
    · intro row member
      obtain earlier | last := List.mem_append.mp member
      · rw [gathered.full row (List.mem_reverse.mp earlier)]
        omega
      · rw [List.mem_singleton.mp last]
        exact pending
    · intro row member
      obtain earlier | last := List.mem_append.mp member
      · exact Nat.le_of_eq (gathered.full row (List.mem_reverse.mp earlier))
      · rw [List.mem_singleton.mp last]
        exact Nat.le_of_lt short

end Gathered

/-! ## Passing over the first bytes -/

namespace Stream

variable {s s' : Stream} {fault : Fault} {left done start count : Nat}

/-- What is left to drop is something to ask for. -/
theorem asks_of_left (more : ¬ left = 0) : 0 < min pieceSize left :=
  Nat.lt_min.mpr ⟨by decide, Nat.pos_of_ne_zero more⟩

/-- Bytes that are read and dropped are passed over. They are fewer than was asked for only if there
are no more. -/
theorem dropFrom_ok (passed : s.dropFrom left done = .ok (count, s')) :
    ∃ dropped ≤ left, count = done + dropped ∧ s' = s.advance dropped ∧
      (s.NeverStalls → dropped = left ∨ s.ahead.length ≤ dropped) := by
  fun_induction Stream.dropFrom left done s with
  | case1 done s =>
      cases passed
      exact ⟨0, Nat.le_refl 0, rfl, rfl, fun _ => .inl rfl⟩
  | case2 => cases passed
  | case3 left done s more s'' taken =>
      cases passed
      refine ⟨0, Nat.zero_le _, rfl, ?_, fun moves => .inr ?_⟩
      · exact advance_of_read taken (asks_of_left more) (going_of_read taken)
      · rw [(moves.of_read (asks_of_left more) taken).2 rfl]
        exact Nat.le_refl 0
  | case4 left done s more piece s'' taken _ _ ih =>
      have within : piece.length ≤ left :=
        Nat.le_trans (length_le_of_read (asks_of_left more) taken).1 (Nat.min_le_right _ _)
      have parts : s.ahead.length = piece.length + s''.ahead.length := by
        rw [ahead_of_read taken, List.length_append]
      obtain rfl := advance_of_read taken (asks_of_left more) (going_of_read taken)
      obtain ⟨dropped, bound, rfl, rfl, ended⟩ := ih passed
      refine ⟨piece.length + dropped, by omega, Nat.add_assoc .., advance_advance .., ?_⟩
      intro moves
      have last := ended moves
      omega

/-- Dropping bytes fails only if reads fail before the last of them. -/
theorem failure_of_dropFrom (failed : s.dropFrom left done = .error fault) :
    ∃ limit cause, s.failure = some (limit, cause) ∧ fault = .system cause ∧
      limit < s.position + left := by
  fun_induction Stream.dropFrom left done s with
  | case1 => cases failed
  | case2 left done s more fault' refused =>
      cases failed
      obtain ⟨limit, cause, fails, system, reached⟩ := failure_of_read refused
      exact ⟨limit, cause, fails, system, by omega⟩
  | case3 => cases failed
  | case4 left done s more piece s'' taken _ _ ih =>
      have within : piece.length ≤ left :=
        Nat.le_trans (length_le_of_read (asks_of_left more) taken).1 (Nat.min_le_right _ _)
      obtain rfl := advance_of_read taken (asks_of_left more) (going_of_read taken)
      obtain ⟨limit, cause, fails, system, early⟩ := ih failed
      have place : (s.advance piece.length).position = s.position + piece.length := rfl
      exact ⟨limit, cause, fails, system, by omega⟩

/-- Skipping gets past the bytes it is told to, by a jump or by reading. In the second case it
counts fewer only if there are no more. -/
theorem skip_ok (passed : s.skip count = .ok (start, s')) :
    (s' = s.jump count ∧ start = count) ∨ (s' = s.advance start ∧ start ≤ count ∧
      (s.NeverStalls → start = count ∨ s.ahead.length ≤ start)) := by
  have reading (dropped : Stream.dropFrom count 0 s = .ok (start, s')) :
      s' = s.advance start ∧ start ≤ count ∧
        (s.NeverStalls → start = count ∨ s.ahead.length ≤ start) := by
    obtain ⟨dropped, bound, rfl, rfl, ended⟩ := dropFrom_ok dropped
    rw [Nat.zero_add]
    exact ⟨rfl, bound, ended⟩
  unfold Stream.skip at passed
  split at passed
  next nothing =>
    cases passed
    exact .inr ⟨rfl, Nat.zero_le _, fun _ => .inl (by omega)⟩
  next =>
    rw [Int.toNat_natCast] at passed
    cases seeking : s.seeking with
    | works =>
        simp only [seeking] at passed
        split at passed
        · cases passed
        · cases passed
          exact .inl ⟨rfl, rfl⟩
    | _ =>
        simp only [seeking] at passed
        exact .inr (reading passed)

/-- From the start of a stream, skipping is a jump to the position that it counts. If that is not
the one it is told, then nothing is ahead. -/
theorem NeverStalls.skip (moves : s.NeverStalls) (atStart : s.position = 0)
    (passed : s.skip count = .ok (start, s')) :
    s' = s.jump start ∧ start ≤ count ∧ (start = count ∨ s.whole.length ≤ start) := by
  have all : s.ahead = s.whole := by rw [s.ahead_eq, atStart, List.drop_zero]
  obtain ⟨rfl, rfl⟩ | ⟨rfl, bound, ended⟩ := skip_ok passed
  · exact ⟨rfl, Nat.le_refl _, .inl rfl⟩
  · rw [advance_eq_jump, atStart, Nat.zero_add]
    exact ⟨rfl, bound, all ▸ ended moves⟩

/-- Skipping fails only if the system cannot jump so far, or if reads fail before the bytes are
passed. -/
theorem failure_of_skip (near : ¬ s.OutOfReach count) (failed : s.skip count = .error fault) :
    ∃ limit cause, s.failure = some (limit, cause) ∧ fault = .system cause ∧
      limit < s.position + count := by
  unfold Stream.skip at failed
  split at failed
  next => cases failed
  next =>
    rw [Int.toNat_natCast] at failed
    cases seeking : s.seeking with
    | works =>
        simp only [seeking, Bool.and_eq_true, decide_eq_true_eq] at failed
        split at failed
        next far => exact absurd ⟨seeking, far⟩ near
        next => cases failed
    | _ =>
        simp only [seeking] at failed
        exact failure_of_dropFrom failed

end Stream

/-! ## Reading rows -/

def upTo (left : Option Nat) (data : Bytes) : Bytes := left.elim data data.take

theorem upTo_leftAfter {left : Option Nat} {piece : Bytes} (rest : Bytes)
    (within : ∀ n, left = some n → piece.length ≤ n) :
    upTo left (piece ++ rest) = piece ++ upTo (RowReading.leftAfter left piece) rest := by
  cases left with
  | none => rfl
  | some n =>
      show (piece ++ rest).take n = piece ++ rest.take (n - piece.length)
      rw [List.take_append, List.take_of_length_le (within n rfl)]

variable {width start : Nat} {s : Stream}

/-- The full rows that were cut before an input failed regroup their own bytes. -/
theorem Gathered.regroups_done {taken : Bytes} {done : List Row} {g : Grouping}
    (gathered : Gathered width start taken done g) (positive : 0 < width) :
    Regroups width start (done.reverse.map Row.data).flatten done.reverse := by
  have alone : Gathered width start (done.reverse.map Row.data).flatten done ⟨g.offset, []⟩ :=
    ⟨List.append_nil _, gathered.full, gathered.offset, gathered.next⟩
  exact alone.finish positive

/-- The rows are all full rows of the data; what is left behind them does not fill another. -/
structure FullRows (width start : Nat) (data : Bytes) (rows : List Row) : Prop where
  regroups : Regroups width start (rows.map Row.data).flatten rows
  full : ∀ row ∈ rows, row.data.length = width
  covers : (rows.map Row.data).flatten <+: data
  rest : data.length < (rows.map Row.data).flatten.length + width

theorem FullRows.empty (start : Nat) (positive : 0 < width) : FullRows width start [] [] where
  regroups := .empty width start
  full := nofun
  covers := List.prefix_rfl
  rest := by simpa using positive

theorem Gathered.fullRows {taken : Bytes} {done : List Row} {g : Grouping}
    (gathered : Gathered width start taken done g) (short : g.pending.length < width) :
    FullRows width start taken done.reverse where
  regroups := gathered.regroups_done (Nat.zero_lt_of_lt short)
  full := fun row member => gathered.full row (List.mem_reverse.mp member)
  covers := ⟨g.pending, gathered.covers⟩
  rest := by
    rw [← gathered.covers, List.length_append]
    omega

/-- Reading rows takes so many bytes from a stream, behind those taken before. The rows regroup all
of them; if a read failed, which it does only where reads fail, there are the full rows. -/
structure RowReading.Takes (width start : Nat) (taken : Bytes) (left : Option Nat) (s : Stream)
    (count : Nat) (r : RowReading) : Prop where
  after : r.after = s.advance count
  within : count ≤ (upTo left s.ahead).length
  sound : ∀ limit cause, s.failure = some (limit, cause) → count ≤ limit - s.position
  whole : r.fault? = none → count = (upTo left s.ahead).length ∧
    Regroups width start (taken ++ s.ahead.take count) r.rows
  broken : ∀ fault, r.fault? = some fault →
    FullRows width start (taken ++ s.ahead.take count) r.rows ∧
      ∀ limit cause, s.failure = some (limit, cause) → limit ≤ s.position + count

/-- A limit that is not used up leaves something to ask for. -/
theorem asks_of_limit {left : Option Nat} {want : Nat} (more : ¬ left = some 0)
    (asked : want = left.elim Stream.pieceSize (min Stream.pieceSize)) : 0 < want := by
  subst asked
  cases left with
  | none => decide
  | some n =>
      refine Nat.lt_min.mpr ⟨by decide, Nat.pos_of_ne_zero ?_⟩
      rintro rfl
      exact more rfl

/-- Pieces are read until the end, the limit or a failure, and regrouped. -/
theorem Gathered.collect {taken : Bytes} {done : List Row} {g : Grouping}
    (gathered : Gathered width start taken done g) (short : g.pending.length < width)
    (moves : s.NeverStalls) (left : Option Nat) :
    ∃ count, (RowReading.collect width left done g s).Takes width start taken left s count := by
  fun_induction RowReading.collect width left done g s generalizing taken
  case case1 done g s =>
    refine ⟨0, rfl, Nat.zero_le _, fun _ _ _ => Nat.zero_le _, fun _ => ⟨rfl, ?_⟩, nofun⟩
    rw [List.take_zero, List.append_nil]
    exact gathered.finish short
  case case2 left done g s more want fault failed =>
    refine ⟨0, rfl, Nat.zero_le _, fun _ _ _ => Nat.zero_le _, nofun, fun _ _ => ⟨?_, ?_⟩⟩
    · rw [List.take_zero, List.append_nil]
      exact gathered.fullRows short
    · obtain ⟨limit, cause, fails, -, reached⟩ := Stream.failure_of_read failed
      intro limit' cause' fails'
      cases fails.symm.trans fails'
      exact reached
  case case3 left done g s more want s' handed =>
    obtain ⟨rfl, ended⟩ := moves.of_read (asks_of_limit more (by cases left <;> rfl)) handed
    have nothing : (upTo left s.ahead).length = 0 := by cases left <;> simp [upTo, ended rfl]
    refine ⟨0, rfl, Nat.zero_le _, fun _ _ _ => Nat.zero_le _, fun _ => ⟨nothing.symm, ?_⟩, nofun⟩
    rw [List.take_zero, List.append_nil]
    exact gathered.finish short
  case case4 left done g s more want piece s' handed _ _ next ih =>
    have positive : 0 < want := asks_of_limit more (by cases left <;> rfl)
    obtain ⟨asked, before⟩ := Stream.length_le_of_read positive handed
    obtain ⟨rfl, -⟩ := moves.of_read positive handed
    obtain ⟨gathered', short'⟩ := gathered.feed (Nat.zero_lt_of_lt short) piece
    obtain ⟨count, reads⟩ := ih gathered' short' moves
    have limited : ∀ n, left = some n → piece.length ≤ n := by
      rintro n rfl
      exact Nat.le_trans asked (Nat.min_le_right _ _)
    have ahead : s.ahead = piece ++ (s.advance piece.length).ahead := Stream.ahead_of_read handed
    have bytes : taken ++ s.ahead.take (piece.length + count) =
        taken ++ piece ++ (s.advance piece.length).ahead.take count := by
      rw [ahead, List.take_length_add_append, List.append_assoc]
    have total : (upTo left s.ahead).length = piece.length +
        (upTo (RowReading.leftAfter left piece) (s.advance piece.length).ahead).length := by
      rw [ahead, upTo_leftAfter _ limited, List.length_append]
    have place : (s.advance piece.length).position = s.position + piece.length := rfl
    refine ⟨piece.length + count, ?_, ?_, ?_, ?_, ?_⟩
    · rw [reads.after, Stream.advance_advance]
    · rw [total]
      exact Nat.add_le_add_left reads.within _
    · intro limit cause fails
      have sound := reads.sound limit cause fails
      have first := before limit cause fails
      omega
    · intro fine
      obtain ⟨all, cut⟩ := reads.whole fine
      rw [total, bytes]
      exact ⟨by omega, cut⟩
    · intro fault failed
      obtain ⟨cut, reached⟩ := reads.broken fault failed
      rw [bytes]
      refine ⟨cut, fun limit cause fails => ?_⟩
      have late := reached limit cause fails
      omega

/-- Reading rows fails only if reads fail before the limit is used up. -/
theorem RowReading.failure_of_collect {left : Option Nat} {done : List Row} {g : Grouping}
    {fault : Fault} (failed : (collect width left done g s).fault? = some fault) :
    ∃ limit cause, s.failure = some (limit, cause) ∧ fault = .system cause ∧
      ∀ n, left = some n → limit < s.position + n := by
  fun_induction collect width left done g s
  case case1 => cases failed
  case case2 left done g s more want fault' refused =>
    cases failed
    obtain ⟨limit, cause, fails, system, reached⟩ := Stream.failure_of_read refused
    refine ⟨limit, cause, fails, system, ?_⟩
    rintro n rfl
    have positive : n ≠ 0 := by
      rintro rfl
      exact more rfl
    omega
  case case3 => cases failed
  case case4 left done g s more want piece s' handed _ _ next ih =>
    have positive : 0 < want := asks_of_limit more (by cases left <;> rfl)
    have asked := (Stream.length_le_of_read positive handed).1
    obtain rfl := Stream.advance_of_read handed positive (Stream.going_of_read handed)
    obtain ⟨limit, cause, fails, system, early⟩ := ih failed
    refine ⟨limit, cause, fails, system, ?_⟩
    rintro n rfl
    have within : piece.length ≤ n := Nat.le_trans asked (Nat.min_le_right _ _)
    have place : (s.advance piece.length).position = s.position + piece.length := rfl
    have before := early (n - piece.length) rfl
    omega

/-- Whatever is read before the end, the limit or a failure, the rows regroup it. -/
theorem Gathered.exists_regroups_collect {taken : Bytes} {done : List Row} {g : Grouping}
    (gathered : Gathered width start taken done g) (short : g.pending.length < width)
    (left : Option Nat) (s : Stream) :
    ∃ data, Regroups width start data (RowReading.collect width left done g s).rows := by
  have positive : 0 < width := Nat.zero_lt_of_lt short
  fun_induction RowReading.collect width left done g s generalizing taken
  case case1 => exact ⟨taken, gathered.finish short⟩
  case case2 => exact ⟨_, gathered.regroups_done positive⟩
  case case3 => exact ⟨taken, gathered.finish short⟩
  case case4 piece _ _ _ _ _ ih =>
    obtain ⟨gathered', short'⟩ := gathered.feed positive piece
    exact ih gathered' short'

/-- The rows of any stream, also of one that fails, regroup some bytes from some offset on. -/
theorem exists_regroups_readRows (o : DumpOptions) (s : Stream) :
    ∃ start data, Regroups o.width start data (readRows o s).rows := by
  unfold readRows
  split
  next => exact ⟨0, [], .empty o.width 0⟩
  next skipped s' _ =>
    exact ⟨skipped, (Gathered.start_nil o.width skipped).exists_regroups_collect o.width_pos
      o.length s'⟩

/-- The bytes that the options select: those behind the skip, up to the limit. -/
def DumpOptions.selection (o : DumpOptions) (data : Bytes) : Bytes :=
  upTo o.length (data.drop o.skip)

theorem Regroups.of_nil {start' : Nat} {rows : List Row} (cut : Regroups width start [] rows) :
    Regroups width start' [] rows := by
  rw [cut.eq_nil]
  exact .empty width start'

theorem upTo_nil (left : Option Nat) : upTo left [] = [] := by
  cases left <;> simp [upTo]

/-- Nothing is selected from data that ends before the bytes that are passed over. -/
theorem DumpOptions.selection_eq_nil (o : DumpOptions) {data : Bytes}
    (short : data.length ≤ o.skip) : o.selection data = [] := by
  rw [selection, List.drop_eq_nil_iff.mpr short, upTo_nil]

theorem take_length_upTo (left : Option Nat) (data : Bytes) :
    data.take (upTo left data).length = upTo left data := by
  cases left with
  | none => exact List.take_length
  | some n =>
      show data.take (data.take n).length = data.take n
      rw [List.length_take]
      exact List.take_eq_take_min.symm

/-- If no read fails, the rows regroup the bytes that the options select, and these lie in front of
the position from which reads fail. -/
theorem regroups_of_no_fault {o : DumpOptions} (moves : s.NeverStalls) (atStart : s.position = 0)
    (fine : (readRows o s).fault? = none) :
    Regroups o.width o.skip (o.selection s.whole) (readRows o s).rows ∧
      ∀ limit cause, s.failure = some (limit, cause) →
        (o.selection s.whole).length ≤ limit - o.skip := by
  unfold readRows at fine ⊢
  cases skipped : s.skip o.skip with
  | error fault => simp [skipped] at fine
  | ok passed =>
      obtain ⟨start, s'⟩ := passed
      simp only [skipped] at fine ⊢
      obtain ⟨rfl, bound, reached⟩ := moves.skip atStart skipped
      obtain ⟨count, takes⟩ := (Gathered.start_nil o.width start).collect (s := s.jump start)
        o.width_pos moves o.length
      obtain ⟨rfl, cut⟩ := takes.whole fine
      rw [take_length_upTo, List.nil_append] at cut
      obtain rfl | past := reached
      · exact ⟨cut, takes.sound⟩
      · have ahead : (s.jump start).ahead = [] := List.drop_eq_nil_iff.mpr past
        have selected : o.selection s.whole = [] := o.selection_eq_nil (by omega)
        rw [ahead, upTo_nil] at cut
        rw [selected]
        exact ⟨cut.of_nil, fun _ _ _ => Nat.zero_le _⟩

/-- Reading rows fails only if the system cannot jump so far, or if reads fail before all bytes are
there that could be selected. -/
theorem failure_of_readRows {o : DumpOptions} {fault : Fault} (near : ¬ s.OutOfReach o.skip)
    (failed : (readRows o s).fault? = some fault) :
    ∃ limit cause, s.failure = some (limit, cause) ∧ fault = .system cause ∧
      ∀ n, o.length = some n → limit < s.position + o.skip + n := by
  unfold readRows at failed
  cases skipped : s.skip o.skip with
  | error refused =>
      simp only [skipped, Option.some.injEq] at failed
      subst failed
      obtain ⟨limit, cause, fails, system, early⟩ := Stream.failure_of_skip near skipped
      exact ⟨limit, cause, fails, system, fun n _ => by omega⟩
  | ok passed =>
      obtain ⟨start, s'⟩ := passed
      simp only [skipped] at failed
      have kept : s'.failure = s.failure ∧ s'.position ≤ s.position + o.skip := by
        obtain ⟨rfl, -⟩ | ⟨rfl, bound, -⟩ := Stream.skip_ok skipped
        · exact ⟨rfl, Nat.le_add_left _ _⟩
        · exact ⟨rfl, Nat.add_le_add_left bound _⟩
      obtain ⟨limit, cause, fails, system, early⟩ := RowReading.failure_of_collect failed
      refine ⟨limit, cause, kept.1.symm.trans fails, system, fun n limited => ?_⟩
      have before := early n limited
      omega

theorem readRows_of_outOfReach {o : DumpOptions} (far : s.OutOfReach o.skip) :
    readRows o s = ⟨[], some s.outOfReach, s⟩ := by
  rw [readRows, Stream.skip_of_outOfReach far]

/-- A fault that is not the system's comes from a jump that the system cannot make, and from nothing
else. -/
theorem other_fault_iff_outOfReach (o : DumpOptions) (s : Stream) :
    (∃ fault, (readRows o s).fault? = some fault ∧ ∀ cause, fault ≠ .system cause) ↔
      s.OutOfReach o.skip := by
  constructor
  · rintro ⟨fault, failed, notSystem⟩
    apply Classical.byContradiction
    intro near
    obtain ⟨-, cause, -, rfl, -⟩ := failure_of_readRows near failed
    exact notSystem cause rfl
  · intro far
    refine ⟨s.outOfReach, by rw [readRows_of_outOfReach far], fun cause => ?_⟩
    rw [Stream.outOfReach]
    split
    · exact Fault.noConfusion
    · exact Fault.noConfusion

theorem regroups_readRows {o : DumpOptions} (delivers : s.Delivers) (atStart : s.position = 0)
    (fits : o.skip < sizeBound) :
    (readRows o s).fault? = none ∧
      Regroups o.width o.skip (o.selection s.whole) (readRows o s).rows := by
  have near : ¬ s.OutOfReach o.skip := fun far => Nat.not_lt.mpr far.2.2 fits
  have fine : (readRows o s).fault? = none := by
    cases failed : (readRows o s).fault? with
    | none => rfl
    | some fault =>
        obtain ⟨limit, cause, fails, -⟩ := failure_of_readRows near failed
        cases delivers.never_fails.symm.trans fails
  exact ⟨fine, (regroups_of_no_fault delivers.never_stalls atStart fine).1⟩

/-- The rows of a stream that does not fail regroup the bytes that the options select, however its
reads are split and however it gets past the first bytes. So they are the same for all streams with
the same bytes. -/
theorem readRows_regroup (o : DumpOptions) (s : Stream) (delivers : s.Delivers)
    (atStart : s.position = 0) (fits : o.skip < sizeBound) :
    (readRows o s).fault? = none ∧
      Regroups o.width o.skip (o.selection s.whole) (readRows o s).rows ∧
      ∀ s' : Stream, s'.Delivers → s'.position = 0 → s'.whole = s.whole →
        (readRows o s').rows = (readRows o s).rows := by
  obtain ⟨fault, cut⟩ := regroups_readRows delivers atStart fits
  refine ⟨fault, cut, fun s' delivers' atStart' same => ?_⟩
  have cut' := (regroups_readRows delivers' atStart' fits).2
  rw [same] at cut'
  exact cut'.unique cut

/-- Five of seven bytes in rows of two, from a pipe that hands over one or two bytes at a time and
that says it can jump but fails to. Bytes in memory give the same rows. -/
theorem readRows_regroup_pipe :
    let o : DumpOptions := { skip := 1, length := some 5, width := 2 }
    let pipe : Stream :=
      { whole := [1, 2, 3, 4, 5, 6, 7], allowance := fun p => some (p % 2 + 1),
        seeking := .failing }
    (readRows o pipe).rows = [⟨1, [2, 3]⟩, ⟨3, [4, 5]⟩, ⟨5, [6]⟩] ∧
      (readRows o (.ofBytes [1, 2, 3, 4, 5, 6, 7])).rows = (readRows o pipe).rows := by
  intro o pipe
  have delivers : pipe.Delivers := ⟨rfl, fun position => by simp [pipe]⟩
  obtain ⟨-, cut, others⟩ := readRows_regroup o pipe delivers rfl (by decide)
  have rows : Regroups 2 1 [2, 3, 4, 5, 6] [⟨1, [2, 3]⟩, ⟨3, [4, 5]⟩, ⟨5, [6]⟩] :=
    ⟨rfl, by decide, by decide, by decide, by decide⟩
  exact ⟨cut.unique rows, others _ (Stream.delivers_ofBytes _) rfl rfl⟩

end Bytewise
