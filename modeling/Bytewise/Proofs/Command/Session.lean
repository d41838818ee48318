import Bytewise.Command.Toolbox
import Bytewise.Proofs.Text.Style

/-!
# What a part of a program writes

`Run.Writes m r data` says that a part of a program ends as `r` and adds `data` to standard output,
wherever it is started, and leaves standard input alone. There is one rule for each way of putting
parts together, so that what a program writes is read off its text, part by part; the log and
standard error are never looked at.

Reading standard input is outside of this, and is followed from a given session by `Run.run_bind`.
-/

namespace Bytewise

@[simp] theorem Channel.bytes_write (c : Channel) (piece : Bytes) :
    (c.write piece).bytes = c.bytes ++ piece := by
  simp [write, bytes]

namespace Text

variable {t : Text}

theorem encode?_of_printable (printable : t.Printable) : t.encode? = some t.encode := by
  rw [encode?, if_pos (List.all_eq_true.mpr printable)]

theorem encode?_of_not_printable (stray : ¬ t.Printable) : t.encode? = none := by
  rw [encode?, if_neg fun all => stray (List.all_eq_true.mp all)]

end Text

namespace Run

variable {α β : Type} {m : Run α} {f : α → Run β} {a : α} {r : Except Halt α}
  {r' : Except Halt β} {halt : Halt} {data data' : Bytes}

/-- The parts of a program run one after the other, until one of them ends it. -/
theorem run_bind (m : Run α) (f : α → Run β) (s : Session) :
    (m >>= f).run.run s = match m.run.run s with
      | (.ok a, s') => (f a).run.run s'
      | (.error halt, s') => (.error halt, s') := by
  rw [ExceptT.run_bind, StateT.run_bind]
  rcases m.run.run s with ⟨_ | _, s'⟩ <;> rfl

theorem run_readInput (f : Stream → α × Stream) (s : Session) :
    (readInput f).run.run s = (.ok (f s.stdin).1, { s with stdin := (f s.stdin).2 }) := rfl

/-- What a part of a program comes to and adds to standard output, wherever it is started. -/
def Writes (m : Run α) (r : Except Halt α) (data : Bytes) : Prop :=
  ∀ s, ∃ s', m.run.run s = (r, s') ∧ s'.out.bytes = s.out.bytes ++ data ∧ s'.stdin = s.stdin

theorem writes_pure (a : α) : Writes (pure a) (.ok a) [] :=
  fun s => ⟨s, rfl, by simp, rfl⟩

theorem writes_throw (halt : Halt) : Writes (throw halt : Run α) (.error halt) [] :=
  fun s => ⟨s, rfl, by simp, rfl⟩

theorem Writes.bind (first : Writes m (.ok a) data) (next : Writes (f a) r' data') :
    Writes (m >>= f) r' (data ++ data') := by
  intro s
  obtain ⟨s₁, ran, out, stdin⟩ := first s
  obtain ⟨s₂, ran', out', stdin'⟩ := next s₁
  refine ⟨s₂, ?_, by rw [out', out, List.append_assoc], stdin'.trans stdin⟩
  rw [run_bind, ran]
  exact ran'

/-- A part that writes nothing can be passed over. -/
theorem Writes.then (first : Writes m (.ok a) []) (next : Writes (f a) r' data') :
    Writes (m >>= f) r' data' :=
  first.bind next

/-- Nothing is added by a part that writes nothing. -/
theorem Writes.bind_nil (first : Writes m (.ok a) data) (next : Writes (f a) r' []) :
    Writes (m >>= f) r' data := by
  have both := first.bind next
  rwa [List.append_nil] at both

theorem Writes.bind_error (ends : Writes m (.error halt) data) :
    Writes (m >>= f) (.error halt) data := by
  intro s
  obtain ⟨s', ran, out, stdin⟩ := ends s
  refine ⟨s', ?_, out, stdin⟩
  rw [run_bind, ran]

/-! ## The channels -/

theorem writes_emit (data : Bytes) : Writes (emit data) (.ok ()) data :=
  fun s => ⟨{ s with out := s.out.write data }, rfl, by simp, rfl⟩

theorem writes_emitError (data : Bytes) : Writes (emitError data) (.ok ()) [] :=
  fun s => ⟨{ s with err := s.err.write data }, rfl, by simp, rfl⟩

theorem writes_printError (t : Text) : Writes (printError t) (.ok ()) [] := writes_emitError _

theorem run_get (s : Session) : (get : Run Session).run.run s = (.ok s, s) := rfl

theorem writes_complain (program message : Text) :
    Writes (complain program message) (.ok ()) [] := by
  intro s
  rw [complain, run_bind, run_get]
  exact writes_printError _ s

theorem writes_record (r : LogRecord) : Writes (record r) (.ok ()) [] := by
  intro s
  rw [record, run_bind, run_get]
  dsimp only
  cases s.log.line? r with
  | none => exact writes_pure () s
  | some line => exact writes_printError line s

def lineBytes (t : Text) : Bytes := (t ++ "\n" : Text).unstyled.encode

/-- The line feed ends a style sequence that was begun. -/
theorem lineBytes_eq (t : Text) : lineBytes t = (t.unstyled ++ "\n" : Text).encode := by
  have plain : ¬ (Symbol.char '\n').CanStyle := by decide
  exact congrArg Text.encode (Text.unstyled_append_of_not_mem plain (by simp) t)

theorem writes_write {t : Text} (printable : t.Printable) : Writes (write t) (.ok ()) t.encode := by
  rw [write, Text.encode?_of_printable printable]
  exact writes_emit _

theorem writes_print {t : Text} (printable : t.Printable) :
    Writes (print t) (.ok ()) t.unstyled.encode :=
  writes_write (Text.printable_unstyled.mpr printable)

theorem writes_print_stray {t : Text} (stray : ¬ t.Printable) :
    Writes (print t) (.error (.raised .unencodable)) [] := by
  have stray : ¬ t.unstyled.Printable := mt Text.printable_unstyled.mp stray
  rw [print, write, Text.encode?_of_not_printable stray]
  exact writes_throw _

theorem writes_echo {t : Text} (printable : t.Printable) :
    Writes (echo t) (.ok ()) (lineBytes t) := by
  have whole : (t ++ "\n" : Text).Printable :=
    Text.printable_append.mpr ⟨printable, Text.printable_ofChars _⟩
  exact writes_print whole

theorem writes_echo_stray {t : Text} (stray : ¬ t.Printable) :
    Writes (echo t) (.error (.raised .unencodable)) [] := by
  have whole : ¬ (t ++ "\n" : Text).Printable := fun printable =>
    stray (Text.printable_append.mp printable).1
  exact writes_print_stray whole

/-! ## Loops -/

theorem writes_forM {f : α → Run Unit} {g : α → Bytes} {xs : List α}
    (each : ∀ x ∈ xs, Writes (f x) (.ok ()) (g x)) :
    Writes (xs.forM f) (.ok ()) (xs.flatMap g) := by
  induction xs with
  | nil => exact writes_pure ()
  | cons x xs ih =>
      obtain ⟨first, others⟩ := List.forall_mem_cons.mp each
      exact first.bind (ih others)

/-- A loop whose body writes nothing. -/
theorem writes_forM_nil {f : α → Run Unit} {xs : List α}
    (each : ∀ x ∈ xs, Writes (f x) (.ok ()) []) : Writes (xs.forM f) (.ok ()) [] := by
  have none : xs.flatMap (fun _ => ([] : Bytes)) = [] := by simp
  exact none ▸ writes_forM each

theorem writes_mapM {f : α → Run β} {g : α → β} {h : α → Bytes} {xs : List α}
    (each : ∀ x ∈ xs, Writes (f x) (.ok (g x)) (h x)) :
    Writes (xs.mapM f) (.ok (xs.map g)) (xs.flatMap h) := by
  induction xs with
  | nil => exact writes_pure []
  | cons x xs ih =>
      obtain ⟨first, others⟩ := List.forall_mem_cons.mp each
      rw [List.mapM_cons]
      exact first.bind ((ih others).bind_nil (writes_pure _))

/-- The body of a loop matters only where it is used. -/
theorem mapM_congr {f g : α → Run β} {xs : List α} (same : ∀ x ∈ xs, f x = g x) :
    xs.mapM f = xs.mapM g := by
  induction xs with
  | nil => rfl
  | cons x xs ih =>
      obtain ⟨first, others⟩ := List.forall_mem_cons.mp same
      rw [List.mapM_cons, List.mapM_cons, first, ih others]

/-- A loop writes what its body writes, up to where the body ends the program. -/
theorem writes_mapM_stops {f : α → Run β} {h : α → Bytes} {xs : List α}
    (each : ∀ x ∈ xs, (∃ b, Writes (f x) (.ok b) (h x)) ∨ Writes (f x) (.error halt) [])
    (stops : ∃ x ∈ xs, Writes (f x) (.error halt) []) :
    ∃ before, before <+: xs ∧ Writes (xs.mapM f) (.error halt) (before.flatMap h) := by
  induction xs with
  | nil => simp at stops
  | cons x xs ih =>
      rw [List.mapM_cons]
      by_cases here : Writes (f x) (.error halt) []
      · exact ⟨[], List.nil_prefix, here.bind_error⟩
      · obtain ⟨first, others⟩ := List.forall_mem_cons.mp each
        obtain ⟨b, wrote⟩ := first.resolve_right here
        simp only [List.mem_cons, exists_eq_or_imp] at stops
        obtain ⟨before, earlier, ends⟩ := ih others (stops.resolve_left here)
        exact ⟨x :: before, List.cons_prefix_cons.mpr ⟨rfl, earlier⟩,
          wrote.bind ends.bind_error⟩

/-- Lines are written until one of them cannot be. -/
theorem writes_forM_echo_stray {g : α → Text} {xs : List α} (stray : ∃ x ∈ xs, ¬ (g x).Printable) :
    ∃ data, Writes (xs.forM fun x => echo (g x)) (.error (.raised .unencodable)) data := by
  induction xs with
  | nil => simp at stray
  | cons x xs ih =>
      by_cases printable : (g x).Printable
      · simp only [List.mem_cons, exists_eq_or_imp] at stray
        obtain ⟨data, ends⟩ := ih (stray.resolve_left (not_not_intro printable))
        exact ⟨_, (writes_echo printable).bind ends⟩
      · exact ⟨_, (writes_echo_stray printable).bind_error⟩

end Run

/-! ## Whole runs -/

/-- How a program ends whose steps come to this. -/
def Halt.ofResult : Except Halt Unit → Halt
  | .ok () => .exit 0
  | .error halt => halt

def Halt.status : Halt → Nat
  | .exit status => status
  | .refused _ => 2
  | .raised _ => 1

theorem Outcome.status_eq (outcome : Outcome) : outcome.status = outcome.ending.status := by
  obtain ⟨out, err, ending⟩ := outcome
  cases ending <;> rfl

/-- What a run comes to, if its steps lead to a part of which it is known what it writes. -/
theorem Program.run_of_writes {p : Program} {around : Surroundings} {stdin : Stream}
    {args : List Text} {m : Run Unit} {s : Session} {r : Except Halt Unit} {data : Bytes}
    (leads : (p.launch around args).run.run (around.session stdin) = m.run.run s)
    (writes : m.Writes r data) :
    (p.run around stdin args).out = s.out.bytes ++ data ∧
      (p.run around stdin args).ending = .ofResult r := by
  obtain ⟨s', ran, out, -⟩ := writes s
  rw [run, leads, ran]
  cases r with
  | ok _ => exact ⟨out, rfl⟩
  | error halt => exact ⟨out, rfl⟩

end Bytewise
