import Bytewise.FileTree.Basic
import Bytewise.Stream

/-!
# Reading streams to the end

Reads of one size read a stream out if each of them is one that the stream takes, hands over at
least one byte wherever there is one, and none fails before the end. Then reading piece by piece
comes to an end without a fault, and the pieces put together are what was ahead
(`Stream.ReadsOut.flatten_readAll`), however the reads are split. If a read fails before the end,
then so does the whole (`Stream.fault_readAll_of_failure`).

A stream that delivers never fails, and a read size that reads is one that every stream takes; both
together read a stream out.
-/

namespace Bytewise

/-- A read of this size gets something wherever there is something. -/
def ReadSize.Reads : ReadSize → Prop
  | .everything => True
  | .atMost count => 0 < count
  | .negative => False
  | .tooLarge => False
  | .notNumber => False

/-- A number that the system can take as a size. -/
def SystemSize (n : Int) : Prop := -(sizeBound : Int) ≤ n ∧ n < sizeBound

instance (n : Int) : Decidable (SystemSize n) :=
  inferInstanceAs (Decidable (-(sizeBound : Int) ≤ n ∧ n < sizeBound))

def FileSize (n : Int) : Prop := -1 ≤ n ∧ n < sizeBound

instance (n : Int) : Decidable (FileSize n) :=
  inferInstanceAs (Decidable (-1 ≤ n ∧ n < sizeBound))

/-- How a file refuses a number that it does not take. -/
def sizeFault (n : Int) : Fault := if SystemSize n then .negativeSize else .tooLarge

namespace ReadSize

variable {n : Int}

theorem ofInt_of_not_systemSize (unfit : ¬ SystemSize n) : ofInt n = .tooLarge := by
  have large : n < -(sizeBound : Int) ∨ (sizeBound : Int) ≤ n := by
    rw [SystemSize] at unfit
    omega
  simp [ofInt, large]

theorem ofInt_of_large (large : (sizeBound : Int) ≤ n) : ofInt n = .tooLarge :=
  ofInt_of_not_systemSize fun fits => Int.not_lt.mpr large fits.2

/-- A number that the system can take is everything at minus one, and a count from zero on. -/
theorem ofInt_of_systemSize (fits : SystemSize n) :
    ofInt n = if n < -1 then .negative else if n < 0 then .everything else .atMost n.toNat := by
  have notLarge : ¬ (n < -(sizeBound : Int) ∨ (sizeBound : Int) ≤ n) := by
    have := fits.1
    have := fits.2
    omega
  simp only [ofInt, Bool.or_eq_true, decide_eq_true_eq, notLarge, ↓reduceIte]

theorem ofInt_of_nonneg (nonneg : 0 ≤ n) (fits : n < sizeBound) : ofInt n = .atMost n.toNat := by
  rw [ofInt_of_systemSize ⟨by omega, fits⟩, if_neg (by omega), if_neg (by omega)]

theorem ofInt_eq_tooLarge_iff : ofInt n = .tooLarge ↔ ¬ SystemSize n := by
  refine ⟨fun large fits => ?_, ofInt_of_not_systemSize⟩
  rw [ofInt_of_systemSize fits] at large
  split at large
  · cases large
  · split at large <;> cases large

/-- Minus one and the positive numbers are sizes that read, if the system can take them. -/
theorem reads_ofInt_iff : (ofInt n).Reads ↔ n = -1 ∨ 0 < n ∧ n < sizeBound := by
  by_cases fits : SystemSize n
  · have below := fits.1
    have above := fits.2
    rw [ofInt_of_systemSize fits]
    split
    next negative => exact iff_of_false id (by omega)
    next =>
      split
      next => exact iff_of_true trivial (by omega)
      next =>
        show 0 < n.toNat ↔ _
        omega
  · rw [ofInt_of_not_systemSize fits]
    refine iff_of_false id fun reads => fits ?_
    simp only [SystemSize, sizeBound] at reads ⊢
    omega

theorem reads_ofInt_of_fileSize (fits : FileSize n) (nonzero : n ≠ 0) : (ofInt n).Reads := by
  have below := fits.1
  have above := fits.2
  exact reads_ofInt_iff.mpr (by omega)

theorem reads_ofInt (positive : 0 < n) (fits : n < sizeBound) : (ofInt n).Reads :=
  reads_ofInt_iff.mpr (.inr ⟨positive, fits⟩)

end ReadSize

namespace Stream

variable {s s' : Stream} {size : ReadSize} {piece : Bytes} {limit : Nat} {cause : SystemFault}
  {fault : Fault}

/-! ## One read -/

/-- Reads of this size ask for at least one byte, and the stream does not refuse the size. -/
def Takes (s : Stream) : ReadSize → Prop
  | .everything => True
  | .atMost count => 0 < count
  | .negative => s.isFile = false
  | .tooLarge => s.bounded = false
  | .notNumber => False

@[simp] theorem refusal?_everything (s : Stream) : s.refusal? .everything = none := rfl

@[simp] theorem refusal?_atMost (s : Stream) (count : Nat) : s.refusal? (.atMost count) = none :=
  rfl

theorem refusal?_of_takes (takes : s.Takes size) : s.refusal? size = none := by
  cases size with
  | everything => rfl
  | atMost count => rfl
  | negative => exact if_neg (Bool.eq_false_iff.mp takes)
  | tooLarge => exact if_neg (Bool.eq_false_iff.mp takes)
  | notNumber => exact takes.elim

/-- The stream refuses the size, whatever it holds. -/
def Refuses (s : Stream) (size : ReadSize) : Prop := ∃ fault, s.refusal? size = some fault

theorem not_refuses_iff : ¬ s.Refuses size ↔ s.refusal? size = none := by
  rw [Option.eq_none_iff_forall_ne_some]
  exact not_exists

theorem refusal?_ofFile (data : Bytes) (n : Int) :
    (ofFile data).refusal? (.ofInt n) = if FileSize n then none else some (sizeFault n) := by
  by_cases fits : SystemSize n
  · have below := fits.1
    have above := fits.2
    rw [ReadSize.ofInt_of_systemSize fits, sizeFault, if_pos fits]
    split
    next negative => rw [if_neg fun takes => Int.not_le.mpr negative takes.1]; rfl
    next takes =>
      have fit : FileSize n := ⟨Int.not_lt.mp takes, above⟩
      rw [if_pos fit]
      split <;> rfl
  · have unfit : ¬ FileSize n := fun takes => fits ⟨by
      have := takes.1
      simp only [sizeBound]
      omega, takes.2⟩
    rw [ReadSize.ofInt_of_not_systemSize fits, if_neg unfit, sizeFault, if_neg fits]
    rfl

/-- A refusal says nothing about the name that was opened. -/
theorem asUnreadable_of_refusal (refused : s.refusal? size = some fault) (name : Text) :
    fault.asUnreadable name = fault := by
  cases size with
  | everything | atMost => cases refused
  | notNumber =>
      cases refused
      rfl
  | negative | tooLarge =>
      rw [refusal?] at refused
      split at refused <;> cases refused
      rfl

/-- A positive number is refused only for being too large. -/
theorem refusal?_of_positive {n : Int} (positive : 0 < n) (refuses : s.Refuses (.ofInt n)) :
    s.refusal? (.ofInt n) = some .tooLarge := by
  obtain ⟨fault, refused⟩ := refuses
  by_cases fits : n < sizeBound
  · rw [ReadSize.ofInt_of_nonneg (Int.le_of_lt positive) fits] at refused
    cases refused
  · rw [ReadSize.ofInt_of_large (Int.not_lt.mp fits), refusal?] at refused ⊢
    split at refused <;> cases refused
    next bounded => exact if_pos bounded

theorem read_of_refusal (refused : s.refusal? size = some fault) : s.read size = .error fault := by
  rw [read, refused]

/-- Every number but zero asks for something. -/
theorem takes_ofInt {n : Int} (nonzero : n ≠ 0) (accepts : ¬ s.Refuses (.ofInt n)) :
    s.Takes (.ofInt n) := by
  rw [not_refuses_iff] at accepts
  cases same : ReadSize.ofInt n with
  | everything => trivial
  | atMost count =>
      have fits : SystemSize n := Decidable.not_not.mp fun unfit => by
        rw [ReadSize.ofInt_of_not_systemSize unfit] at same
        cases same
      rw [ReadSize.ofInt_of_systemSize fits] at same
      split at same
      next => cases same
      next =>
        split at same <;> cases same
        show 0 < n.toNat
        omega
  | negative =>
      rw [same] at accepts
      exact Bool.eq_false_iff.mpr fun file => by simp [refusal?, file] at accepts
  | tooLarge =>
      rw [same] at accepts
      exact Bool.eq_false_iff.mpr fun bounded => by simp [refusal?, bounded] at accepts
  | notNumber =>
      rw [same] at accepts
      cases accepts

/-- Reads hand over something wherever there is something. -/
def NeverStalls (s : Stream) : Prop := ∀ position, s.allowance position ≠ some 0

/-- Reads do not fail at the position of the stream. -/
def Going (s : Stream) : Prop :=
  ∀ limit cause, s.failure = some (limit, cause) → s.position < limit

/-- Reads fail neither before the end of the data nor at it. -/
def Lasts (s : Stream) : Prop :=
  ∀ limit cause, s.failure = some (limit, cause) → s.position + s.ahead.length < limit

theorem Lasts.going (lasts : s.Lasts) : s.Going := fun limit cause fails =>
  Nat.lt_of_le_of_lt (Nat.le_add_right _ _) (lasts limit cause fails)

theorem read_eq_ok (takes : s.Takes size) (going : s.Going) :
    s.read size = .ok (s.ahead.take (s.grant size), s.advance (s.grant size)) := by
  rw [read, refusal?_of_takes takes]
  cases fails : s.failure with
  | none => rfl
  | some failure =>
      obtain ⟨limit, cause⟩ := failure
      exact if_neg (Nat.not_le.mpr (going limit cause fails))

theorem read_eq_error (takes : s.Takes size) (fails : s.failure = some (limit, cause))
    (reached : limit ≤ s.position) : s.read size = .error (.system cause) := by
  rw [read, refusal?_of_takes takes, fails]
  exact if_pos reached

/-- What a read asks for, which is something wherever there is something. -/
theorem exists_asked (takes : s.Takes size) (more : s.ahead ≠ []) :
    ∃ asked, 0 < asked ∧ s.grant size =
      s.failure.elim id (fun f => min (f.1 - s.position))
        ((s.allowance s.position).elim asked (min · asked)) := by
  have left : 0 < s.ahead.length := List.length_pos_iff.mpr more
  unfold grant
  cases size with
  | everything =>
      refine ⟨s.ahead.length, left, ?_⟩
      cases s.failure <;> cases s.allowance s.position <;> rfl
  | atMost count =>
      refine ⟨min count s.ahead.length, Nat.lt_min.mpr ⟨takes, left⟩, ?_⟩
      cases s.failure <;> cases s.allowance s.position <;> rfl
  | negative | tooLarge =>
      refine ⟨s.ahead.length, left, ?_⟩
      cases s.failure <;> cases s.allowance s.position <;> rfl
  | notNumber => exact takes.elim

/-- Where there is something, a read is granted something. -/
theorem grant_pos (takes : s.Takes size) (never : s.NeverStalls) (going : s.Going)
    (more : s.ahead ≠ []) : 0 < s.grant size := by
  obtain ⟨asked, positive, granted⟩ := exists_asked takes more
  have allowed : 0 < (s.allowance s.position).elim asked (min · asked) := by
    cases allowance : s.allowance s.position with
    | none => exact positive
    | some most =>
        have moves : most ≠ 0 := fun zero => never s.position (zero ▸ allowance)
        exact Nat.lt_min.mpr ⟨Nat.pos_of_ne_zero moves, positive⟩
  rw [granted]
  cases fails : s.failure with
  | none => exact allowed
  | some failure =>
      exact Nat.lt_min.mpr ⟨Nat.sub_pos_of_lt (going failure.1 failure.2 fails), allowed⟩

/-- A read that hands over nothing has reached the end. -/
theorem ahead_eq_nil (takes : s.Takes size) (never : s.NeverStalls) (going : s.Going)
    (nothing : s.ahead.take (s.grant size) = []) : s.ahead = [] := by
  obtain none | empty := List.take_eq_nil_iff.mp nothing
  · exact Decidable.by_contra fun more =>
      Nat.ne_of_gt (grant_pos takes never going more) none
  · exact empty

theorem grant_le (s : Stream) (size : ReadSize) : s.grant size ≤ s.ahead.length := by
  have asked : ∀ count, min count s.ahead.length ≤ s.ahead.length :=
    fun count => Nat.min_le_right _ _
  have allowed : ∀ (most : Nat) {n : Nat}, n ≤ s.ahead.length → min most n ≤ s.ahead.length :=
    fun most _ within => Nat.le_trans (Nat.min_le_right _ _) within
  unfold grant
  dsimp only
  split <;> split <;> split <;> simp [asked, allowed]

theorem grant_atMost_le (s : Stream) (count : Nat) : s.grant (.atMost count) ≤ count := by
  have asked : min count s.ahead.length ≤ count := Nat.min_le_left _ _
  have allowed : ∀ (most : Nat) {n : Nat}, n ≤ count → min most n ≤ count :=
    fun most _ within => Nat.le_trans (Nat.min_le_right _ _) within
  unfold grant
  dsimp only
  split <;> split <;> simp [asked, allowed]

/-- A read moves the stream by the piece that it hands over, and changes nothing else. -/
theorem advance_of_read (taken : s.read size = .ok (piece, s')) (takes : s.Takes size)
    (going : s.Going) : s' = s.advance piece.length := by
  rw [read_eq_ok takes going] at taken
  obtain ⟨rfl, rfl⟩ : s.ahead.take (s.grant size) = piece ∧ s.advance (s.grant size) = s' := by
    simpa using taken
  rw [List.length_take, Nat.min_eq_left (s.grant_le size)]

/-! ## Reads of a number of bytes -/

section

variable {count : Nat}

theorem going_of_read (taken : s.read (.atMost count) = .ok (piece, s')) : s.Going := by
  intro limit cause fails
  apply Nat.lt_of_not_le
  intro reached
  simp [read, fails, reached] at taken

/-- Such a read fails only where the system makes it fail. -/
theorem failure_of_read (failed : s.read (.atMost count) = .error fault) :
    ∃ limit cause, s.failure = some (limit, cause) ∧ fault = .system cause ∧
      limit ≤ s.position := by
  rw [read, refusal?_atMost] at failed
  cases fails : s.failure with
  | none => simp [fails] at failed
  | some failure =>
      obtain ⟨limit, cause⟩ := failure
      simp only [fails] at failed
      split at failed
      next reached =>
        cases failed
        exact ⟨limit, cause, rfl, rfl, reached⟩
      next => cases failed

theorem grant_le_of_failure (fails : s.failure = some (limit, cause)) (size : ReadSize) :
    s.grant size ≤ limit - s.position := by
  unfold grant
  rw [fails]
  exact Nat.min_le_left _ _

/-- A read hands over no more than it was asked for, and nothing from where reads fail. -/
theorem length_le_of_read (positive : 0 < count)
    (taken : s.read (.atMost count) = .ok (piece, s')) :
    piece.length ≤ count ∧
      ∀ limit cause, s.failure = some (limit, cause) → piece.length ≤ limit - s.position := by
  have takes : s.Takes (.atMost count) := positive
  rw [read_eq_ok takes (going_of_read taken)] at taken
  obtain rfl : s.ahead.take (s.grant (.atMost count)) = piece :=
    congrArg Prod.fst (Except.ok.inj taken)
  have granted : (s.ahead.take (s.grant (.atMost count))).length ≤ s.grant (.atMost count) :=
    List.length_take_le ..
  refine ⟨Nat.le_trans granted (s.grant_atMost_le count), fun limit cause fails => ?_⟩
  exact Nat.le_trans granted (grant_le_of_failure fails _)

/-- A read of a stream that never stalls moves it by the piece, which is empty only at the end. -/
theorem NeverStalls.of_read (moves : s.NeverStalls) (positive : 0 < count)
    (taken : s.read (.atMost count) = .ok (piece, s')) :
    s' = s.advance piece.length ∧ (piece = [] → s.ahead = []) := by
  have takes : s.Takes (.atMost count) := positive
  have going := going_of_read taken
  refine ⟨advance_of_read taken takes going, ?_⟩
  rintro rfl
  rw [read_eq_ok takes going] at taken
  exact ahead_eq_nil takes moves going (congrArg Prod.fst (Except.ok.inj taken))

end

/-! ## Moving -/

theorem advance_advance (s : Stream) (first second : Nat) :
    (s.advance first).advance second = s.advance (first + second) := by
  simp only [advance, List.drop_drop, Nat.add_assoc]

theorem advance_eq_jump (s : Stream) (count : Nat) :
    s.advance count = s.jump (s.position + count) := by
  obtain ⟨whole, position, ahead, allowance, failure, seeking, bounded, isFile, rfl⟩ := s
  simp [advance, jump]

/-- A jump is refused that the system cannot make. -/
def OutOfReach (s : Stream) (count : Nat) : Prop :=
  s.seeking = .works ∧ s.bounded = true ∧ sizeBound ≤ count

theorem skip_of_outOfReach {count : Nat} (far : s.OutOfReach count) :
    s.skip count = .error s.outOfReach := by
  obtain ⟨works, bounded, large⟩ := far
  have positive : count ≠ 0 := by
    rw [sizeBound] at large
    omega
  simp [skip, positive, works, bounded, large]

/-! ## All reads -/

/-- Reads of this size come to the end of the stream. -/
structure ReadsOut (s : Stream) (size : ReadSize) : Prop where
  takes : s.Takes size
  never_stalls : s.NeverStalls
  lasts : s.Lasts

theorem ReadsOut.next (out : s.ReadsOut size) (taken : s.read size = .ok (piece, s')) :
    s'.ReadsOut size := by
  have left : s.ahead.length = piece.length + s'.ahead.length := by
    rw [ahead_of_read taken, List.length_append]
  obtain rfl := advance_of_read taken out.takes out.lasts.going
  refine ⟨?_, out.never_stalls, ?_⟩
  · cases size <;> exact out.takes
  · intro limit cause fails
    have before := out.lasts limit cause fails
    show s.position + piece.length + _ < limit
    omega

theorem ReadsOut.readFrom (out : s.ReadsOut size) (done : List Bytes) :
    (readFrom size done s).fault? = none ∧
      (readFrom size done s).pieces.flatten = done.reverse.flatten ++ s.ahead := by
  -- A piece that is not empty moves from what is ahead to what is done.
  fun_induction Stream.readFrom size done s with
  | case1 done s fault failed =>
      rw [read_eq_ok out.takes out.lasts.going] at failed
      cases failed
  | case2 done s s' handed =>
      rw [read_eq_ok out.takes out.lasts.going] at handed
      have nothing := congrArg Prod.fst (Except.ok.inj handed)
      simp [ahead_eq_nil out.takes out.never_stalls out.lasts.going nothing]
  | case3 done s piece s' handed _ _ ih =>
      obtain ⟨fault, pieces⟩ := ih (out.next handed)
      refine ⟨fault, ?_⟩
      rw [pieces, ahead_of_read handed]
      simp

theorem ReadsOut.fault_readAll (out : s.ReadsOut size) : (s.readAll size).fault? = none :=
  (out.readFrom []).1

theorem ReadsOut.flatten_readAll (out : s.ReadsOut size) :
    (s.readAll size).pieces.flatten = s.ahead :=
  (out.readFrom []).2

/-- A read that fails before the end, or at it, makes reading to the end fail, however the reads
before it were split. -/
theorem fault_readFrom_of_failure (takes : s.Takes size) (never : s.NeverStalls)
    (fails : s.failure = some (limit, cause)) (early : limit ≤ s.position + s.ahead.length)
    (done : List Bytes) : (readFrom size done s).fault? = some (.system cause) := by
  have going (before : s.position < limit) : s.Going := by
    intro limit' cause' fails'
    cases fails.symm.trans fails'
    exact before
  -- A read before the failure leaves the failure where it is, and it hands over something, so it
  -- is not taken for the end.
  fun_induction readFrom size done s with
  | case1 done s fault failed =>
      obtain reached | before := Nat.lt_or_ge s.position limit |>.symm
      · rw [read_eq_error takes fails reached] at failed
        cases failed
        rfl
      · rw [read_eq_ok takes (going before)] at failed
        cases failed
  | case2 done s s' handed =>
      obtain reached | before := Nat.lt_or_ge s.position limit |>.symm
      · rw [read_eq_error takes fails reached] at handed
        cases handed
      · rw [read_eq_ok takes (going before)] at handed
        have nothing := congrArg Prod.fst (Except.ok.inj handed)
        have ended := ahead_eq_nil takes never (going before) nothing
        simp only [ended, List.length_nil] at early
        omega
  | case3 done s piece s' handed _ _ ih =>
      obtain reached | before := Nat.lt_or_ge s.position limit |>.symm
      · rw [read_eq_error takes fails reached] at handed
        cases handed
      · have left : s.ahead.length = piece.length + s'.ahead.length := by
          rw [ahead_of_read handed, List.length_append]
        obtain rfl := advance_of_read handed takes (going before)
        refine ih ?_ never fails ?_ ?_
        · cases size <;> exact takes
        · show limit ≤ s.position + piece.length + _
          omega
        · intro later limit' cause' fails'
          cases fails.symm.trans fails'
          exact later

theorem fault_readAll_of_failure (takes : s.Takes size) (never : s.NeverStalls)
    (fails : s.failure = some (limit, cause)) (early : limit ≤ s.position + s.ahead.length) :
    (s.readAll size).fault? = some (.system cause) :=
  fault_readFrom_of_failure takes never fails early []

/-- A size that a stream refuses is refused by the first read. -/
theorem fault_readAll_of_refusal (refused : s.refusal? size = some fault) :
    (s.readAll size).fault? = some fault := by
  have fails := read_of_refusal refused
  rw [readAll, readFrom]
  split
  next fault' failed =>
    rw [fails] at failed
    cases failed
    rfl
  next handed => simp [fails] at handed

/-- Reads of no bytes get nothing, and take that for the end. -/
theorem readAll_zero (delivering : s.failure = none) :
    (s.readAll (.atMost 0)).fault? = none ∧ (s.readAll (.atMost 0)).pieces = [] := by
  have nothing : s.grant (.atMost 0) = 0 := by
    unfold grant
    cases s.allowance s.position <;> simp [delivering]
  have empty : s.read (.atMost 0) = .ok ([], s.advance 0) := by
    simp [read, delivering, nothing]
  rw [readAll, readFrom]
  split
  next failed =>
    rw [empty] at failed
    cases failed
  next handed =>
    rw [empty] at handed
    cases handed
    exact ⟨rfl, rfl⟩

/-! ## Streams that never fail -/

/-- Reads never fail, and hand over something wherever there is something. -/
structure Delivers (s : Stream) : Prop where
  never_fails : s.failure = none
  never_stalls : s.NeverStalls

theorem delivers_ofBytes (data : Bytes) : (ofBytes data).Delivers :=
  ⟨rfl, fun _ => nofun⟩

theorem delivers_ofFile (data : Bytes) : (ofFile data).Delivers :=
  ⟨rfl, fun _ => nofun⟩

theorem Delivers.readsOut (delivers : s.Delivers) (takes : s.Takes size) : s.ReadsOut size where
  takes := takes
  never_stalls := delivers.never_stalls
  lasts := fun limit cause fails => by
    rw [delivers.never_fails] at fails
    cases fails

/-- Every stream takes a size that reads. -/
theorem takes_of_reads (s : Stream) (reads : size.Reads) : s.Takes size := by
  cases size with
  | everything => trivial
  | atMost count => exact reads
  | negative | tooLarge | notNumber => exact reads.elim

end Stream

end Bytewise
