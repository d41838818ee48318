import Bytewise.Package.Standard

/-!
# Where options end

Packages for command lines share the conventions about where options end: at two hyphens, and at the
first operand if operands are not to stand among options. Where they are, it makes no difference
whether they stand among options or behind them, so the options of a command line can be given again
with other operands (`CommandLinePackage.EndsOptions`).

The package of our own keeps these conventions (`CommandLinePackage.standard_endsOptions`).
-/

namespace Bytewise

/-- What is relied on about a package that reads command lines, whatever the options are. -/
structure CommandLinePackage.EndsOptions (package : CommandLinePackage) : Prop where
  behind_hyphens : ∀ {α : Type} (rules : List (OptionRule α)) (mixed : Bool) (names : List Text),
    package.read rules mixed (Text.ofString "--" :: names) = .ok ⟨[], names⟩
  mixed : ∀ {α : Type} {rules : List (OptionRule α)} {args : List Text} {a : Arguments α},
    package.read rules true args = .ok a →
      ∃ options, ∀ names, package.read rules true (options ++ Text.ofString "--" :: names) =
        .ok { a with operands := names }
  unmixed : ∀ {α : Type} (rules : List (OptionRule α)) {arg : Text} (rest : List Text),
    arg.head? ≠ some (.char '-') →
      package.read rules false (arg :: rest) = .ok ⟨[], arg :: rest⟩

namespace Arguments

variable {α : Type} {rules : List (OptionRule α)} {args : List Text} {a : Arguments α}

theorem read_end (rules : List (OptionRule α)) (mixed : Bool) (names : List Text) :
    read rules mixed (Text.ofString "--" :: names) = .ok ⟨[], names⟩ := by
  rw [read.eq_def]
  exact if_pos rfl

theorem exists_of_map_eq_ok {β γ ε : Type} {f : β → γ} {x : Except ε β} {c : γ}
    (mapped : f <$> x = .ok c) : ∃ b, x = .ok b ∧ f b = c := by
  cases x with
  | error e => cases mapped
  | ok b => exact ⟨b, rfl, Except.ok.inj mapped⟩

/-- A command line can be given again with other operands. -/
theorem exists_options (taken : read rules true args = .ok a) :
    ∃ options, ∀ names, read rules true (options ++ Text.ofString "--" :: names) =
      .ok { a with operands := names } := by
  -- The options and their values are kept in order, and the operands are left out.
  fun_induction Arguments.read rules true args generalizing a with
  | case1 =>
      cases taken
      exact ⟨[], read_end rules true⟩
  | case2 rest =>
      cases taken
      exact ⟨[], read_end rules true⟩
  | case3 => cases taken
  | case4 arg notEnd isOption given rest reads ih =>
      obtain ⟨behind, rest, rfl⟩ := exists_of_map_eq_ok taken
      obtain ⟨options, kept⟩ := ih rest
      refine ⟨arg :: options, fun names => ?_⟩
      rw [List.cons_append, read.eq_def]
      dsimp only
      rw [if_neg notEnd, if_pos isOption, reads]
      dsimp only
      rw [kept]
      rfl
  | case5 => cases taken
  | case6 arg notEnd isOption given key value rest reads ih =>
      obtain ⟨behind, rest, rfl⟩ := exists_of_map_eq_ok taken
      obtain ⟨options, kept⟩ := ih rest
      refine ⟨arg :: value :: options, fun names => ?_⟩
      rw [List.cons_append, List.cons_append, read.eq_def]
      dsimp only
      rw [if_neg notEnd, if_pos isOption, reads]
      dsimp only
      rw [kept]
      rfl
  | case7 arg rest _ _ _ ih =>
      obtain ⟨behind, rest, rfl⟩ := exists_of_map_eq_ok taken
      obtain ⟨options, kept⟩ := ih rest
      exact ⟨options, kept⟩
  | case8 arg rest _ _ unmixed => exact absurd rfl unmixed

theorem read_operand (rules : List (OptionRule α)) {arg : Text} (rest : List Text)
    (operand : arg.head? ≠ some (.char '-')) :
    read rules false (arg :: rest) = .ok ⟨[], arg :: rest⟩ := by
  have notEnd : arg ≠ Text.ofString "--" := by
    rintro rfl
    exact operand rfl
  have notOption : ¬ isOption arg = true := by simp [isOption, operand]
  rw [read.eq_def]
  dsimp only
  rw [if_neg notEnd, if_neg notOption, if_neg Bool.false_ne_true]

end Arguments

theorem CommandLinePackage.standard_endsOptions : standard.EndsOptions where
  behind_hyphens := Arguments.read_end
  mixed := Arguments.exists_options
  unmixed := Arguments.read_operand

end Bytewise
