import Bytewise.Proofs.Command.Supply

/-!
# Operands handled together and alone

A program that handles operands one by one is described by a `Handling`: a report for each operand
that depends on nothing but the operand, and what follows the last of them. Run with several
operands it does what it does with each of them alone, one after the other, until one of them ends
it by a fault that it does not handle (`Handling.apart`).

How a run with several operands is to be seen against the runs with each of them is said by `Apart`.
-/

namespace Bytewise

/-! ## Handlings -/

/-- Is this report the last, because the program ends by a fault that it does not handle? -/
def Report.ends {β : Type} (report : Report β) : Bool := !report.result.isOk

/-- A report that a program can only be ended with by a fault that it does not handle. -/
def Report.Raises {β : Type} (report : Report β) : Prop :=
  ∀ halt, report.result = .error halt → ∃ fault, halt = .raised fault

structure Handling (β : Type) where
  report : Text → Report β
  /-- Did an operand go well? -/
  good : β → Bool
  /-- What is written behind the operands. -/
  total : List β → Bytes := fun _ => []
  raises : ∀ name, (report name).Raises
  total_single : ∀ b, total [b] = []

/-- Was a run ended by a fault that the program does not handle? -/
def Outcome.raised (outcome : Outcome) : Bool :=
  match outcome.ending with
  | .raised _ => true
  | _ => false

namespace Handling

variable {β : Type} {h : Handling β} {name : Text} {names : List Text} {b : β} {fault : Fault}
  {voice : Voice}

/-- The operands up to the one that ends the program. -/
def seen (h : Handling β) (names : List Text) : List Text :=
  throughFirst (fun name => (h.report name).ends) names

/-- How the program ends that handles these operands, and what it writes. -/
def outcome (h : Handling β) (names : List Text) : Outcome :=
  let out := (h.seen names).flatMap fun name => (h.report name).out
  let err := (h.seen names).flatMap fun name => (h.report name).err
  match names.mapM fun name => (h.report name).result with
  | .ok bs => ⟨out ++ h.total bs, err, .exit (if bs.all h.good then 0 else 1)⟩
  | .error halt => ⟨out, err, halt⟩

/-- A loop over operands that prints the reports, with an end that goes by their values. -/
theorem outcome_eq {f : Text → Run β} {finish : List β → Run Unit}
    (each : ∀ name ∈ names, Run.PrintsReport voice (f name) (h.report name))
    (finishes : ∀ bs, (finish bs).Prints voice
      (if bs.all h.good then .ok () else .error (.exit 1)) (h.total bs) [])
    {s : Session} (voiced : s.voice = voice) (fresh : s.out.bytes = [] ∧ s.err.bytes = []) :
    (names.mapM f >>= finish).outcome s = h.outcome names := by
  have loop := Run.prints_mapM each
  rw [outcome]
  cases gathered : names.mapM fun name => (h.report name).result with
  | error halt =>
      rw [gathered] at loop
      exact loop.bind_error.outcome voiced fresh
  | ok bs =>
      rw [gathered] at loop
      have ended : Halt.ofResult (if bs.all h.good then .ok () else .error (.exit 1)) =
          .exit (if bs.all h.good then 0 else 1) := by
        split <;> rfl
      rw [(loop.bind (finishes bs)).outcome voiced fresh, List.append_nil, ended]
      rfl

theorem outcome_single_of_ok (fine : (h.report name).result = .ok b) :
    h.outcome [name] =
      ⟨(h.report name).out, (h.report name).err, .exit (if h.good b then 0 else 1)⟩ := by
  have seen : h.seen [name] = [name] := by
    simp [Handling.seen, throughFirst]
  have gathered : [name].mapM (fun name => (h.report name).result) = .ok [b] := by
    rw [List.mapM_cons, fine]
    rfl
  simp [outcome, seen, gathered, h.total_single]

theorem outcome_single_of_raised (raised : (h.report name).result = .error (.raised fault)) :
    h.outcome [name] = ⟨(h.report name).out, (h.report name).err, .raised fault⟩ := by
  have seen : h.seen [name] = [name] := by
    simp [Handling.seen, throughFirst]
  have gathered : [name].mapM (fun name => (h.report name).result) = .error (.raised fault) := by
    rw [List.mapM_cons, raised]
    rfl
  simp [outcome, seen, gathered]

theorem cases_result (h : Handling β) (name : Text) :
    (∃ b, (h.report name).result = .ok b) ∨
      ∃ fault, (h.report name).result = .error (.raised fault) := by
  cases come : (h.report name).result with
  | ok b => exact .inl ⟨b, rfl⟩
  | error halt =>
      obtain ⟨fault, rfl⟩ := h.raises name halt come
      exact .inr ⟨fault, rfl⟩

/-- Alone, an operand adds what its report says. -/
theorem single (h : Handling β) (name : Text) :
    (h.outcome [name]).out = (h.report name).out ∧ (h.outcome [name]).err = (h.report name).err ∧
      (h.outcome [name]).raised = (h.report name).ends := by
  obtain ⟨b, fine⟩ | ⟨fault, raised⟩ := h.cases_result name
  · rw [outcome_single_of_ok fine, Report.ends, fine]
    exact ⟨rfl, rfl, rfl⟩
  · rw [outcome_single_of_raised raised, Report.ends, raised]
    exact ⟨rfl, rfl, rfl⟩

/-- What an operand comes to that does not end the program. -/
def value [Inhabited β] (h : Handling β) (name : Text) : β :=
  match (h.report name).result with
  | .ok b => b
  | .error _ => default

theorem result_of_not_ends [Inhabited β] (goes : (h.report name).ends = false) :
    (h.report name).result = .ok (h.value name) := by
  rw [value]
  cases come : (h.report name).result with
  | ok b => rfl
  | error halt =>
      rw [Report.ends, come] at goes
      cases goes

theorem status_single [Inhabited β] (goes : (h.report name).ends = false) :
    (h.outcome [name]).status = if h.good (h.value name) then 0 else 1 := by
  rw [outcome_single_of_ok (result_of_not_ends goes)]
  rfl

theorem status_single_of_ends (ends : (h.report name).ends = true) :
    (h.outcome [name]).status = 1 := by
  obtain ⟨b, fine⟩ | ⟨fault, raised⟩ := h.cases_result name
  · rw [Report.ends, fine] at ends
    cases ends
  · rw [outcome_single_of_raised raised]
    rfl

/-- Operands of which none ends the program. -/
theorem outcome_of_none [Inhabited β] (nowhere : ∀ name ∈ names, (h.report name).ends = false) :
    h.outcome names =
      ⟨names.flatMap (fun name => (h.report name).out) ++ h.total (names.map h.value),
        names.flatMap fun name => (h.report name).err,
        .exit (if names.all fun name => h.good (h.value name) then 0 else 1)⟩ := by
  have seen : h.seen names = names := throughFirst_eq_self fun name member => by
    simp [nowhere name member]
  have gathered : names.mapM (fun name => (h.report name).result) = .ok (names.map h.value) :=
    mapM_of_ok fun name member => result_of_not_ends (nowhere name member)
  simp only [outcome, seen, gathered, List.all_map]
  rfl

/-- The first operand that ends the program is the last that is seen. -/
theorem outcome_of_some (somewhere : ∃ name ∈ names, (h.report name).ends = true) :
    ∃ fault, h.outcome names =
      ⟨(h.seen names).flatMap fun name => (h.report name).out,
        (h.seen names).flatMap fun name => (h.report name).err, .raised fault⟩ := by
  obtain ⟨name, member, ends⟩ := somewhere
  have fails : ∃ name ∈ names, ∃ halt, (h.report name).result = .error halt := by
    obtain ⟨b, fine⟩ | ⟨fault, raised⟩ := h.cases_result name
    · rw [Report.ends, fine] at ends
      cases ends
    · exact ⟨name, member, _, raised⟩
  obtain ⟨first, -, halt, failed, gathered⟩ := mapM_of_error fails
  obtain ⟨fault, rfl⟩ := h.raises first halt failed
  exact ⟨fault, by rw [outcome, gathered]⟩

end Handling

/-! ## Together and alone -/

/-- A run with several operands, seen against the runs with each of them alone and what was to
follow the last of them: it does the same, one after the other, up to the first operand that ends
the program by a fault which is not handled. -/
structure Apart (alone : Text → Outcome) (names : List Text) (total : Bytes)
    (together : Outcome) : Prop where
  out : together.out =
    (throughFirst (fun name => (alone name).raised) names).flatMap (fun name => (alone name).out) ++
      if names.any fun name => (alone name).raised then [] else total
  err : together.err =
    (throughFirst (fun name => (alone name).raised) names).flatMap fun name => (alone name).err
  status : together.status = if names.any fun name => (alone name).status = 1 then 1 else 0

section

variable {alone : Text → Outcome} {names : List Text} {total : Bytes} {together : Outcome}

/-- Only the runs with the operands themselves matter. -/
theorem Apart.congr {alone' : Text → Outcome} (apart : Apart alone names total together)
    (same : ∀ name ∈ names, alone' name = alone name) : Apart alone' names total together := by
  have seen : throughFirst (fun name => (alone' name).raised) names =
      throughFirst (fun name => (alone name).raised) names :=
    throughFirst_congr fun name member => by rw [same name member]
  have shown (f : Outcome → Bytes) :
      (throughFirst (fun name => (alone name).raised) names).flatMap (fun name => f (alone' name)) =
        (throughFirst (fun name => (alone name).raised) names).flatMap fun name => f (alone name) :=
    List.flatMap_congr fun name among =>
      congrArg f (same name ((throughFirst_isPrefix _ names).subset among))
  have any (p : Outcome → Bool) :
      names.any (fun name => p (alone' name)) = names.any fun name => p (alone name) := by
    have all := congrArg (List.any · p) (List.map_congr_left same)
    rwa [List.any_map, List.any_map] at all
  refine ⟨?_, ?_, ?_⟩
  · rw [seen, shown Outcome.out, any Outcome.raised, apart.out]
  · rw [seen, shown Outcome.err, apart.err]
  · rw [any fun outcome => decide (outcome.status = 1), apart.status]

/-- Nothing is missing exactly if what is not seen would have added nothing, and nothing was to
follow. -/
theorem Apart.complete_iff_unseen (apart : Apart alone names total together) :
    (together.out = names.flatMap (fun name => (alone name).out) ++ total ∧
        together.err = names.flatMap fun name => (alone name).err) ↔
      (∀ name ∈ names.drop (throughFirst (fun name => (alone name).raised) names).length,
        (alone name).out = [] ∧ (alone name).err = []) ∧
      (names.any (fun name => (alone name).raised) = true → total = []) := by
  have parts := List.prefix_iff_eq_append.mp
    (throughFirst_isPrefix (fun name => (alone name).raised) names)
  have whole (f : Text → Bytes) : names.flatMap f =
      (throughFirst (fun name => (alone name).raised) names).flatMap f ++
        (names.drop (throughFirst (fun name => (alone name).raised) names).length).flatMap f := by
    rw [← List.flatMap_append, parts]
  rw [apart.out, apart.err, whole, whole, List.append_assoc, List.append_right_inj,
    List.self_eq_append_right]
  by_cases somewhere : names.any (fun name => (alone name).raised) = true
  · rw [if_pos somewhere, List.nil_eq_append_iff, List.flatMap_eq_nil_iff, List.flatMap_eq_nil_iff]
    constructor
    · rintro ⟨⟨out, nothing⟩, err⟩
      exact ⟨fun name member => ⟨out name member, err name member⟩, fun _ => nothing⟩
    · rintro ⟨silent, nothing⟩
      exact ⟨⟨fun name member => (silent name member).1, nothing somewhere⟩,
        fun name member => (silent name member).2⟩
  · have all : throughFirst (fun name => (alone name).raised) names = names :=
      throughFirst_eq_self (by simpa using somewhere)
    simp [somewhere, all]

/-- Nothing is missing exactly if behind the first operand that ends the program none would have
added anything, and nothing was to follow. -/
theorem Apart.complete_iff (apart : Apart alone names total together) :
    (together.out = names.flatMap (fun name => (alone name).out) ++ total ∧
        together.err = names.flatMap fun name => (alone name).err) ↔
      ∀ before name behind, names = before ++ name :: behind →
        (∀ other ∈ before, ¬ (alone other).raised = true) → (alone name).raised = true →
        (∀ other ∈ behind, (alone other).out = [] ∧ (alone other).err = []) ∧ total = [] := by
  rw [apart.complete_iff_unseen]
  constructor
  · rintro ⟨silent, nothing⟩ before name behind rfl first here
    have seen : throughFirst (fun name => (alone name).raised) (before ++ name :: behind) =
        before ++ [name] := throughFirst_append_of_first first here
    have unseen : (before ++ name :: behind).drop (before ++ [name]).length = behind := by simp
    rw [seen, unseen] at silent
    exact ⟨silent, nothing (List.any_eq_true.mpr ⟨name, by simp, here⟩)⟩
  · intro each
    cases found : names.find? fun name => (alone name).raised with
    | some name =>
        obtain ⟨here, before, behind, rfl, first⟩ := List.find?_eq_some_iff_append.mp found
        have earlier : ∀ other ∈ before, ¬ (alone other).raised = true := by simpa using first
        obtain ⟨silent, nothing⟩ := each before name behind rfl earlier here
        have seen : throughFirst (fun name => (alone name).raised) (before ++ name :: behind) =
            before ++ [name] := throughFirst_append_of_first earlier here
        have unseen : (before ++ name :: behind).drop (before ++ [name]).length = behind := by simp
        rw [seen, unseen]
        exact ⟨silent, fun _ => nothing⟩
    | none =>
        have nowhere := List.find?_eq_none.mp found
        have all : throughFirst (fun name => (alone name).raised) names = names :=
          throughFirst_eq_self nowhere
        rw [all, List.drop_length]
        refine ⟨nofun, fun somewhere => ?_⟩
        obtain ⟨name, member, raised⟩ := List.any_eq_true.mp somewhere
        exact absurd raised (nowhere name member)

end

variable {β : Type}

/-- Operands are handled together as they are handled alone. -/
theorem Handling.apart [Inhabited β] (h : Handling β) {names : List Text} {total : Bytes}
    (totals : (∀ name ∈ names, (h.report name).ends = false) →
      h.total (names.map h.value) = total) :
    Apart (fun name => h.outcome [name]) names total (h.outcome names) := by
  have seen : throughFirst (fun name => (h.outcome [name]).raised) names = h.seen names :=
    throughFirst_congr fun name _ => (h.single name).2.2
  have outs : (fun name => (h.outcome [name]).out) = fun name => (h.report name).out :=
    funext fun name => (h.single name).1
  have errs : (fun name => (h.outcome [name]).err) = fun name => (h.report name).err :=
    funext fun name => (h.single name).2.1
  have any : names.any (fun name => (h.outcome [name]).raised) =
      names.any fun name => (h.report name).ends := by
    simp only [(h.single _).2.2]
  by_cases somewhere : ∃ name ∈ names, (h.report name).ends = true
  · obtain ⟨fault, together⟩ := h.outcome_of_some somewhere
    have found : names.any (fun name => (h.report name).ends) = true := by simpa using somewhere
    refine ⟨?_, ?_, ?_⟩
    · rw [together, seen, outs, any, if_pos found, List.append_nil]
    · rw [together, seen, errs]
    · obtain ⟨name, member, ends⟩ := somewhere
      have one : names.any (fun name => (h.outcome [name]).status = 1) = true := by
        rw [List.any_eq_true]
        exact ⟨name, member, decide_eq_true (h.status_single_of_ends ends)⟩
      rw [together, if_pos one]
      rfl
  · have nowhere : ∀ name ∈ names, (h.report name).ends = false := by simpa using somewhere
    have unfound : ¬ names.any (fun name => (h.report name).ends) = true := by simpa using nowhere
    have together := h.outcome_of_none nowhere
    have all : h.seen names = names := throughFirst_eq_self (by simpa using nowhere)
    refine ⟨?_, ?_, ?_⟩
    · rw [together, seen, all, outs, any, if_neg unfound, totals nowhere]
    · rw [together, seen, all, errs]
    · have bad : names.any (fun name => (h.outcome [name]).status = 1) =
          !names.all fun name => h.good (h.value name) := by
        rw [List.not_all_eq_any_not, Bool.eq_iff_iff, List.any_eq_true, List.any_eq_true]
        refine exists_congr fun name => and_congr_right fun member => ?_
        rw [h.status_single (nowhere name member)]
        cases h.good (h.value name) <;> simp
      rw [together, bad]
      cases names.all fun name => h.good (h.value name) <;> rfl

end Bytewise
