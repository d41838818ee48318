import Bytewise.Proofs.Command.Session

/-!
# What a part of a program writes to both channels

`Run.Prints voice m r out err` says that a part of a program ends as `r`, and what it adds to
standard output and to standard error, wherever it is started with this voice. Messages and records
are shown on standard error, so here it has to be known how the terminal lays the ones out and what
the log shows of the others; a part that prints in this way leaves both as they are.

A loop prints what its body prints for one member after the other, up to the first with which that
ends the program (`Run.prints_mapM`). What comes of the members is gathered as it would be without
a program around them, in `Except`.
-/

namespace Bytewise

/-- The members of a list up to the first with a property, and that one. -/
def throughFirst {α : Type} (p : α → Bool) : List α → List α
  | [] => []
  | x :: xs => x :: if p x then [] else throughFirst p xs

section ThroughFirst

variable {α : Type} {p q : α → Bool} {x : α} {xs : List α}

theorem throughFirst_cons_of_pos (here : p x = true) : throughFirst p (x :: xs) = [x] := by
  rw [throughFirst, if_pos here]

theorem throughFirst_cons_of_neg (elsewhere : ¬ p x = true) :
    throughFirst p (x :: xs) = x :: throughFirst p xs := by
  rw [throughFirst, if_neg elsewhere]

theorem throughFirst_isPrefix (p : α → Bool) (xs : List α) : throughFirst p xs <+: xs := by
  induction xs with
  | nil => exact List.prefix_rfl
  | cons x xs ih =>
      refine List.cons_prefix_cons.mpr ⟨rfl, ?_⟩
      split
      · exact List.nil_prefix
      · exact ih

theorem throughFirst_eq_self (nowhere : ∀ x ∈ xs, ¬ p x = true) : throughFirst p xs = xs := by
  induction xs with
  | nil => rfl
  | cons x xs ih =>
      obtain ⟨here, others⟩ := List.forall_mem_cons.mp nowhere
      rw [throughFirst_cons_of_neg here, ih others]

theorem throughFirst_append_of_first {before behind : List α} (first : ∀ y ∈ before, ¬ p y = true)
    (here : p x = true) : throughFirst p (before ++ x :: behind) = before ++ [x] := by
  induction before with
  | nil => exact throughFirst_cons_of_pos here
  | cons y before ih =>
      obtain ⟨elsewhere, others⟩ := List.forall_mem_cons.mp first
      rw [List.cons_append, throughFirst_cons_of_neg elsewhere, ih others, List.cons_append]

theorem throughFirst_congr (same : ∀ x ∈ xs, p x = q x) :
    throughFirst p xs = throughFirst q xs := by
  induction xs with
  | nil => rfl
  | cons x xs ih =>
      obtain ⟨here, others⟩ := List.forall_mem_cons.mp same
      rw [throughFirst, throughFirst, here, ih others]

end ThroughFirst

section Gathering

variable {α β ε : Type} {r : α → Except ε β} {xs : List α}

theorem mapM_of_ok {g : α → β} (fine : ∀ x ∈ xs, r x = .ok (g x)) :
    xs.mapM r = .ok (xs.map g) := by
  induction xs with
  | nil => rfl
  | cons x xs ih =>
      obtain ⟨here, others⟩ := List.forall_mem_cons.mp fine
      rw [List.mapM_cons, here, ih others]
      rfl

theorem mapM_of_error (fails : ∃ x ∈ xs, ∃ e, r x = .error e) :
    ∃ x ∈ xs, ∃ e, r x = .error e ∧ xs.mapM r = .error e := by
  induction xs with
  | nil => simp at fails
  | cons x xs ih =>
      cases here : r x with
      | error e =>
          refine ⟨x, List.mem_cons_self, e, here, ?_⟩
          rw [List.mapM_cons, here]
          rfl
      | ok b =>
          obtain ⟨y, member, e, failed⟩ := fails
          obtain rfl | later := List.mem_cons.mp member
          · cases here.symm.trans failed
          · obtain ⟨z, among, e', first, ends⟩ := ih ⟨y, later, e, failed⟩
            refine ⟨z, List.mem_cons_of_mem x among, e', first, ?_⟩
            rw [List.mapM_cons, here, ends]
            rfl

end Gathering

/-- What decides how a program words what it says on standard error. -/
structure Voice where
  terminal : TerminalPackage
  log : LogSettings

def Session.voice (s : Session) : Voice := ⟨s.terminal, s.log⟩

namespace Run

variable {α β : Type} {voice : Voice} {m : Run α} {f : α → Run β} {a : α} {r : Except Halt α}
  {r' : Except Halt β} {halt : Halt} {out out' err err' : Bytes}

/-! ## Outcomes of parts -/

/-- What was written, and how the program ends, when its last part is started here. -/
def outcome (m : Run Unit) (s : Session) : Outcome :=
  match m.run.run s with
  | (.ok (), s) => ⟨s.out.bytes, s.err.bytes, .exit 0⟩
  | (.error halt, s) => ⟨s.out.bytes, s.err.bytes, halt⟩

theorem outcome_bind (m : Run α) (f : α → Run Unit) (s : Session) :
    (m >>= f).outcome s = match m.run.run s with
      | (.ok a, s) => (f a).outcome s
      | (.error halt, s) => ⟨s.out.bytes, s.err.bytes, halt⟩ := by
  rw [outcome, run_bind]
  rcases m.run.run s with ⟨_ | _, _⟩ <;> rfl

/-- What a part of a program comes to and adds to the channels, wherever it is started with a voice.
-/
def Prints (voice : Voice) (m : Run α) (r : Except Halt α) (out err : Bytes) : Prop :=
  ∀ s, s.voice = voice → ∃ s', m.run.run s = (r, s') ∧ s'.voice = voice ∧
    s'.out.bytes = s.out.bytes ++ out ∧ s'.err.bytes = s.err.bytes ++ err

theorem Prints.outcome {m : Run Unit} {r : Except Halt Unit} (prints : Prints voice m r out err)
    {s : Session} (voiced : s.voice = voice) (fresh : s.out.bytes = [] ∧ s.err.bytes = []) :
    m.outcome s = ⟨out, err, .ofResult r⟩ := by
  obtain ⟨s', ran, -, wrote, erred⟩ := prints s voiced
  rw [fresh.1, List.nil_append] at wrote
  rw [fresh.2, List.nil_append] at erred
  rw [Run.outcome, ran]
  cases r with
  | ok _ => simp only [wrote, erred, Halt.ofResult]
  | error halt => simp only [wrote, erred, Halt.ofResult]

/-! ## Parts put together -/

theorem prints_pure (a : α) : Prints voice (pure a) (.ok a) [] [] :=
  fun s voiced => ⟨s, rfl, voiced, by simp, by simp⟩

theorem prints_throw (halt : Halt) : Prints voice (throw halt : Run α) (.error halt) [] [] :=
  fun s voiced => ⟨s, rfl, voiced, by simp, by simp⟩

theorem Prints.bind (first : Prints voice m (.ok a) out err)
    (next : Prints voice (f a) r' out' err') :
    Prints voice (m >>= f) r' (out ++ out') (err ++ err') := by
  intro s voiced
  obtain ⟨s₁, ran, voiced₁, wrote, erred⟩ := first s voiced
  obtain ⟨s₂, ran', voiced₂, wrote', erred'⟩ := next s₁ voiced₁
  refine ⟨s₂, ?_, voiced₂, by rw [wrote', wrote, List.append_assoc],
    by rw [erred', erred, List.append_assoc]⟩
  rw [run_bind, ran]
  exact ran'

theorem Prints.bind_error (ends : Prints voice m (.error halt) out err) :
    Prints voice (m >>= f) (.error halt) out err := by
  intro s voiced
  obtain ⟨s', ran, rest⟩ := ends s voiced
  refine ⟨s', ?_, rest⟩
  rw [run_bind, ran]

/-- Nothing is added by a part that prints nothing. -/
theorem Prints.bind_nil (first : Prints voice m (.ok a) out err)
    (next : Prints voice (f a) r' [] []) : Prints voice (m >>= f) r' out err := by
  have both := first.bind next
  rwa [List.append_nil, List.append_nil] at both

/-! ## The channels -/

def complaint (voice : Voice) (program message : Text) : Bytes :=
  (voice.terminal.errorLine program message).encodeShown

def recorded (voice : Voice) (r : LogRecord) : Bytes :=
  (voice.log.line? r).elim [] Text.encodeShown

theorem prints_printError (t : Text) : Prints voice (printError t) (.ok ()) [] t.encodeShown :=
  fun s voiced => ⟨{ s with err := s.err.write t.encodeShown }, rfl, voiced, by simp, by simp⟩

theorem prints_complain (program message : Text) :
    Prints voice (complain program message) (.ok ()) [] (complaint voice program message) := by
  rintro s rfl
  rw [complain, run_bind, run_get]
  exact prints_printError _ s rfl

theorem prints_record (r : LogRecord) :
    Prints voice (record r) (.ok ()) [] (recorded voice r) := by
  rintro s rfl
  rw [record, run_bind, run_get]
  dsimp only [recorded, Session.voice]
  cases s.log.line? r with
  | none => exact prints_pure () s rfl
  | some line => exact prints_printError line s rfl

theorem run_echo {t : Text} (printable : t.Printable) (s : Session) :
    (echo t).run.run s = (.ok (), { s with out := s.out.write (lineBytes t) }) := by
  have whole : (t ++ "\n" : Text).unstyled.Printable := Text.printable_unstyled.mpr
    (Text.printable_append.mpr ⟨printable, Text.printable_ofChars _⟩)
  rw [echo, print, write, Text.encode?_of_printable whole]
  rfl

theorem prints_echo {t : Text} (printable : t.Printable) :
    Prints voice (echo t) (.ok ()) (lineBytes t) [] :=
  fun s voiced => ⟨_, run_echo printable s, voiced, by simp, by simp⟩

theorem prints_echo_stray {t : Text} (stray : ¬ t.Printable) :
    Prints voice (echo t) (.error (.raised .unencodable)) [] [] := by
  have whole : ¬ (t ++ "\n" : Text).unstyled.Printable := fun printable =>
    stray (Text.printable_append.mp (Text.printable_unstyled.mp printable)).1
  rw [echo, print, write, Text.encode?_of_not_printable whole]
  exact prints_throw _

/-! ## Loops -/

theorem prints_forM_echo {g : α → Text} (printable : ∀ a, (g a).Printable) (as : List α) :
    Prints voice (as.forM fun a => echo (g a)) (.ok ())
      (as.flatMap fun a => lineBytes (g a)) [] := by
  induction as with
  | nil => exact prints_pure ()
  | cons a as ih => exact (prints_echo (printable a)).bind ih

/-- A loop prints what its body prints, up to the first member with which that ends the program. -/
theorem prints_mapM {f : α → Run β} {r : α → Except Halt β} {out err : α → Bytes} {xs : List α}
    (each : ∀ x ∈ xs, Prints voice (f x) (r x) (out x) (err x)) :
    Prints voice (xs.mapM f) (xs.mapM r) ((throughFirst (fun x => !(r x).isOk) xs).flatMap out)
      ((throughFirst (fun x => !(r x).isOk) xs).flatMap err) := by
  induction xs with
  | nil => exact prints_pure []
  | cons x xs ih =>
      obtain ⟨first, others⟩ := List.forall_mem_cons.mp each
      have rest := ih others
      rw [List.mapM_cons, List.mapM_cons]
      cases come : r x with
      | error halt =>
          have seen : throughFirst (fun x => !(r x).isOk) (x :: xs) = [x] :=
            throughFirst_cons_of_pos (by rw [come]; rfl)
          rw [come] at first
          rw [seen, List.flatMap_singleton, List.flatMap_singleton]
          exact first.bind_error
      | ok b =>
          have seen : throughFirst (fun x => !(r x).isOk) (x :: xs) =
              x :: throughFirst (fun x => !(r x).isOk) xs :=
            throughFirst_cons_of_neg (by rw [come]; exact Bool.false_ne_true)
          rw [come] at first
          rw [seen, List.flatMap_cons, List.flatMap_cons]
          refine first.bind ?_
          cases gathered : xs.mapM r with
          | error halt =>
              rw [gathered] at rest
              exact rest.bind_error
          | ok bs =>
              rw [gathered] at rest
              exact rest.bind_nil (prints_pure _)

end Run

end Bytewise
