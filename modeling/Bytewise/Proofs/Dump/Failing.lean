import Bytewise.Proofs.Dump.ReadBack

/-!
# Dumps of inputs that fail

An input may fail while its first bytes are passed over, between two pieces, or with the beginning
of a row at hand. In each case the rows made before the failure are all full rows of the selected
bytes in front of the failing position (`fullRows_of_fault`): the beginning of another row is not
shown. Full rows of the beginning of some data are the first rows of the data
(`FullRows.isPrefix`), and the lines of the first rows are the first lines, because a line depends
only on the rows before it (`dumpLines_append`).
-/

namespace Bytewise

/-! ## The first rows -/

/-- Later rows add lines and change none. -/
theorem dumpLines_append (o : DumpOptions) (rows later : List Row) :
    ∃ lines, dumpLines o (rows ++ later) = dumpLines o rows ++ lines := by
  rw [dumpLines, List.foldl_append, lines_foldl_add]
  exact ⟨_, rfl⟩

theorem dumpLines_isPrefix (o : DumpOptions) {rows rows' : List Row} (first : rows <+: rows') :
    dumpLines o rows <+: dumpLines o rows' := by
  obtain ⟨later, rfl⟩ := first
  obtain ⟨lines, all⟩ := dumpLines_append o rows later
  exact ⟨lines, all.symm⟩

namespace FullRows

variable {width start : Nat} {data data' : Bytes} {rows rows' : List Row}

theorem length_flatten (cut : FullRows width start data rows) :
    (rows.map Row.data).flatten.length = rows.length * width := by
  have lengths : rows.map (List.length ∘ Row.data) = rows.map fun _ => width :=
    List.map_congr_left cut.full
  rw [List.length_flatten, List.map_map, lengths, List.map_const', List.sum_replicate, smul_eq_mul]

/-- There is room for as many full rows as are there, and for no more. -/
theorem length_eq (cut : FullRows width start data rows) : rows.length = data.length / width := by
  have bytes := cut.length_flatten
  have within := cut.covers.length_le
  have rest := cut.rest
  rw [bytes] at within rest
  refine (Nat.div_eq_of_lt_le within ?_).symm
  rw [Nat.succ_mul]
  exact rest

/-- Data has its full rows in one way only. -/
theorem unique (cut : FullRows width start data rows) (cut' : FullRows width start data rows') :
    rows = rows' := by
  have lengths : (rows.map Row.data).flatten.length = (rows'.map Row.data).flatten.length := by
    rw [cut.length_flatten, cut'.length_flatten, cut.length_eq, cut'.length_eq]
  have bytes : (rows.map Row.data).flatten = (rows'.map Row.data).flatten :=
    (List.prefix_of_prefix_length_le cut.covers cut'.covers (Nat.le_of_eq lengths)).eq_of_length
      lengths
  exact cut.regroups.unique (bytes ▸ cut'.regroups)

/-- No data has no rows, wherever they start. -/
theorem of_nil {start' : Nat} (cut : FullRows width start [] rows) :
    FullRows width start' [] rows := by
  have positive : 0 < width := by
    have rest := cut.rest
    rw [List.prefix_nil.mp cut.covers] at rest
    simpa using rest
  have none : rows = [] := cut.unique (.empty start positive)
  rw [none]
  exact .empty start' positive

end FullRows

/-- Full rows that begin some data are the first of its rows. -/
theorem Regroups.isPrefix {width start : Nat} {data : Bytes} {rows rows' : List Row}
    (first : Regroups width start (rows.map Row.data).flatten rows)
    (full : ∀ row ∈ rows, row.data.length = width)
    (within : (rows.map Row.data).flatten <+: data) (cut : Regroups width start data rows') :
    rows <+: rows' := by
  induction rows generalizing start data rows' with
  | nil => exact List.nil_prefix
  | cons row rows ih =>
      have filled : row.data.length = width := full row List.mem_cons_self
      have nonempty : 1 ≤ row.data.length := first.nonempty row List.mem_cons_self
      obtain ⟨rest, parts⟩ := within
      rw [List.map_cons, List.flatten_cons, List.append_assoc] at parts
      cases rows' with
      | nil =>
          have nothing : [] = data := cut.covers
          simp [← nothing, List.append_eq_nil_iff] at parts
          simp [parts.1] at nonempty
      | cons row' rows' =>
          have datas : row.data = row'.data := by
            rw [cut.first_data.1, ← parts, ← filled, List.take_left]
          have offsets : row.offset = row'.offset :=
            first.first_offset.trans cut.first_offset.symm
          have later : (rows.map Row.data).flatten <+: data.drop width := by
            rw [← parts, ← filled, List.drop_left]
            exact List.prefix_append _ _
          have tail := first.tail
          rw [← first.first_data.2] at tail
          refine List.cons_prefix_cons.mpr ⟨?_, ?_⟩
          · cases row
            cases row'
            simp_all
          · exact ih tail (fun r member => full r (List.mem_cons_of_mem _ member)) later cut.tail

theorem FullRows.isPrefix {width start : Nat} {data data' : Bytes} {rows rows' : List Row}
    (first : FullRows width start data rows) (within : data <+: data')
    (cut : Regroups width start data' rows') : rows <+: rows' :=
  first.regroups.isPrefix first.full (first.covers.trans within) cut

/-! ## Rows of an input that fails -/

theorem upTo_isPrefix (left : Option Nat) {data data' : Bytes} (within : data <+: data') :
    upTo left data <+: upTo left data' := by
  cases left with
  | none => exact within
  | some n => exact within.take n

theorem upTo_take {left : Option Nat} {data : Bytes} {count : Nat}
    (within : count ≤ (upTo left data).length) : upTo left (data.take count) = data.take count := by
  cases left with
  | none => rfl
  | some n =>
      have bound : count ≤ n := Nat.le_trans within (List.length_take_le n data)
      exact List.take_of_length_le (Nat.le_trans (List.length_take_le count data) bound)

theorem DumpOptions.selection_isPrefix (o : DumpOptions) {data data' : Bytes}
    (within : data <+: data') : o.selection data <+: o.selection data' :=
  upTo_isPrefix o.length (within.drop o.skip)

variable {o : DumpOptions} {s : Stream} {limit : Nat} {cause : SystemFault} {fault : Fault}

/-- If reading fails, the rows are all full rows of the selected bytes in front of the failing
position. -/
theorem fullRows_of_fault (moves : s.NeverStalls) (atStart : s.position = 0)
    (fails : s.failure = some (limit, cause)) (near : ¬ s.OutOfReach o.skip)
    (failed : (readRows o s).fault? = some fault) :
    FullRows o.width o.skip (o.selection (s.whole.take limit)) (readRows o s).rows := by
  unfold readRows at failed ⊢
  cases skipped : s.skip o.skip with
  | error refused =>
      obtain ⟨limit', cause', fails', -, early⟩ := Stream.failure_of_skip near skipped
      cases fails.symm.trans fails'
      have nothing : o.selection (s.whole.take limit) = [] := by
        apply o.selection_eq_nil
        have := List.length_take_le limit s.whole
        omega
      rw [nothing]
      exact .empty o.skip o.width_pos
  | ok passed =>
      obtain ⟨start, s'⟩ := passed
      simp only [skipped] at failed ⊢
      obtain ⟨rfl, bound, reached⟩ := moves.skip atStart skipped
      obtain ⟨count, takes⟩ := (Gathered.start_nil o.width start).collect (s := s.jump start)
        o.width_pos moves o.length
      obtain ⟨cut, late⟩ := takes.broken fault failed
      rw [List.nil_append] at cut
      -- The read that failed stands at the failing position.
      have place : count = limit - start := by
        have sound : count ≤ limit - start := takes.sound limit cause fails
        have late : limit ≤ start + count := late limit cause fails
        omega
      obtain rfl | past := reached
      · have bytes : o.selection (s.whole.take limit) = (s.jump o.skip).ahead.take count := by
          rw [DumpOptions.selection, List.drop_take, ← place]
          exact upTo_take takes.within
        rw [bytes]
        exact cut
      · have ahead : (s.jump start).ahead = [] := List.drop_eq_nil_iff.mpr past
        have nothing : o.selection (s.whole.take limit) = [] := by
          apply o.selection_eq_nil
          have := List.length_take_le' limit s.whole
          omega
        rw [ahead, List.take_nil] at cut
        rw [nothing]
        exact cut.of_nil

/-- A stream that fails from some position on yields the beginning of the dump that it would yield
if it did not fail, whatever the position, the splits of the reads and the repeated lines. If it
gets by without a fault, that is the whole dump, and its bytes lie in front of the failing position.
Otherwise the lines are those of all full rows of the selected bytes in front of the failing
position, unless the system cannot jump as far as it is told, which has nothing to do with the
failure. Failing at or behind the end of a limit does no harm; in a stream that holds so many bytes
the system can jump as far. -/
theorem failing_dump_begins_dump (o : DumpOptions) (s : Stream) (moves : s.NeverStalls)
    (atStart : s.position = 0) (fails : s.failure = some (limit, cause)) :
    let failing := Dump.ofStream o s
    let healthy := Dump.ofStream o { s with failure := none }
    failing.lines <+: healthy.lines ∧
      (failing.fault? = none → healthy.fault? = none ∧ failing.lines = healthy.lines ∧
        (o.selection s.whole).length ≤ limit - o.skip) ∧
      (∀ fault, failing.fault? = some fault →
        (fault = .system cause ∧ ∃ rows, failing.lines = dumpLines o rows ∧
          FullRows o.width o.skip (o.selection (s.whole.take limit)) rows) ∨
        (fault = s.outOfReach ∧ s.OutOfReach o.skip ∧ failing.lines = [])) ∧
      ∀ n, o.length = some n → o.skip + n ≤ limit → ¬ s.OutOfReach o.skip →
        failing.fault? = none := by
  intro failing healthy
  by_cases far : s.OutOfReach o.skip
  case pos =>
    have stopped : readRows o s = ⟨[], some s.outOfReach, s⟩ := readRows_of_outOfReach far
    have lines : failing.lines = [] := congrArg (fun r : RowReading => dumpLines o r.rows) stopped
    have fault : failing.fault? = some s.outOfReach := congrArg RowReading.fault? stopped
    rw [lines, fault]
    refine ⟨List.nil_prefix, nofun, ?_, fun _ _ _ near => absurd far near⟩
    rintro _ ⟨⟩
    exact .inr ⟨rfl, far, rfl⟩
  case neg =>
    have fine : healthy.fault? = none := by
      cases failed : healthy.fault? with
      | none => rfl
      | some fault =>
          obtain ⟨_, _, fails', -⟩ :=
            failure_of_readRows (s := { s with failure := none }) far failed
          cases fails'
    have all : Regroups o.width o.skip (o.selection s.whole) _ :=
      (regroups_of_no_fault (s := { s with failure := none }) moves atStart fine).1
    have complete (good : failing.fault? = none) : failing.lines = healthy.lines ∧
        (o.selection s.whole).length ≤ limit - o.skip := by
      obtain ⟨cut, before⟩ := regroups_of_no_fault moves atStart good
      exact ⟨congrArg (dumpLines o) (cut.unique all), before limit cause fails⟩
    have broken {fault : Fault} (failed : failing.fault? = some fault) :
        FullRows o.width o.skip (o.selection (s.whole.take limit)) (readRows o s).rows :=
      fullRows_of_fault moves atStart fails far failed
    have early {fault : Fault} (failed : failing.fault? = some fault) :
        fault = .system cause ∧ ∀ n, o.length = some n → limit < s.position + o.skip + n := by
      obtain ⟨limit', cause', fails', early⟩ := failure_of_readRows far failed
      cases fails.symm.trans fails'
      exact early
    refine ⟨?_, fun good => ⟨fine, complete good⟩, ?_, ?_⟩
    · cases failed : failing.fault? with
      | none => rw [(complete failed).1]
      | some fault =>
          have first := o.selection_isPrefix (List.take_prefix limit s.whole)
          exact dumpLines_isPrefix o ((broken failed).isPrefix first all)
    · intro fault failed
      exact .inl ⟨(early failed).1, _, rfl, broken failed⟩
    · intro n limited late _
      cases failed : failing.fault? with
      | none => rfl
      | some fault =>
          have before := (early failed).2 n limited
          omega

/-- Eleven bytes in rows of two behind the first, from a pipe that hands over one or two bytes at a
time and whose reads fail behind the tenth. Of the fifth row only one byte has come, so it is not
shown; the rows before it are equal but for the first. -/
theorem failing_dump_begins_dump_pipe :
    let o : DumpOptions := { layout := .oneByteHex, skip := 1, width := 2 }
    let pipe : Stream :=
      { whole := [0, 1, 2, 7, 7, 7, 7, 7, 7, 3, 3], allowance := fun p => some (p % 2 + 1),
        seeking := .unsupported, failure := some (10, .inputOutput) }
    (Dump.ofStream o pipe).fault? = some (.system .inputOutput) ∧
      (Dump.ofStream o pipe).lines =
        ["00000001  01 02".toList, "00000003  07 07".toList, "*".toList] ∧
      ["00000001  01 02".toList, "00000003  07 07".toList, "*".toList] <+:
        (Dump.ofStream o { pipe with failure := none }).lines := by
  intro o pipe
  have moves : pipe.NeverStalls := fun position => by simp [pipe]
  obtain ⟨first, sound, broken, -⟩ := failing_dump_begins_dump o pipe moves rfl rfl
  cases failed : (Dump.ofStream o pipe).fault? with
  | none => exact absurd (sound failed).2.2 (by decide)
  | some fault =>
      obtain ⟨rfl, rows, lines, cut⟩ | ⟨-, far, -⟩ := broken fault failed
      · have shown : FullRows 2 1 [1, 2, 7, 7, 7, 7, 7, 7, 3]
            [⟨1, [1, 2]⟩, ⟨3, [7, 7]⟩, ⟨5, [7, 7]⟩, ⟨7, [7, 7]⟩] :=
          ⟨⟨rfl, by decide, by decide, by decide, by decide⟩, by decide, by decide, by decide⟩
        have three : (Dump.ofStream o pipe).lines =
            ["00000001  01 02".toList, "00000003  07 07".toList, "*".toList] := by
          rw [lines, cut.unique shown]
          decide
        exact ⟨rfl, three, three ▸ first⟩
      · cases far.1

end Bytewise
