import Bytewise.Proofs.Repetition
import Bytewise.Proofs.Settings.Overrides
import Bytewise.Proofs.Text.Encoding
import Bytewise.Proofs.WholeNumber

/-!
# Refused variables

Four of the variables have to hold whole numbers. Overriding stops at the first that does not, in
the order of the overrides, and leaves the settings with the overrides before it made
(`Settings.override_stops_at_first_refused`).

What was made is made again when overriding is tried again, so it does no harm to go on from there:
with the variables before the refused one as they were, the second try comes to what overriding the
original settings comes to.
-/

namespace Bytewise

def Text.IsWhole (t : Text) : Prop := ∃ cs z, t = Text.ofChars cs ∧ Numeral.WrittenWhole cs z

/-- The variable of an override has to hold a whole number, is set, and does not hold one. -/
def Environment.Refuses (env : Environment) (o : Override) : Prop :=
  o.conversion = .whole ∧ ∃ t, env.lookup o.name = some t ∧ ¬ t.IsWhole

namespace Conversion

variable {c : Conversion} {t : Text} {v : Value}

theorem convert_whole_iff :
    whole.convert t = some v ↔
      ∃ cs z, t = Text.ofChars cs ∧ Numeral.WrittenWhole cs z ∧ v = .int z := by
  have read : whole.convert t = t.chars?.bind fun cs => (Numeral.readInteger? cs).map .int := by
    rw [convert]
    cases t.chars? <;> rfl
  simp only [read, Option.bind_eq_some_iff, Option.map_eq_some_iff, Text.chars?_eq_some_iff,
    Numeral.readInteger?_eq_some_iff]
  constructor
  · rintro ⟨cs, same, z, written, rfl⟩
    exact ⟨cs, z, same, written, rfl⟩
  · rintro ⟨cs, z, same, written, rfl⟩
    exact ⟨cs, same, z, written, rfl⟩

/-- Only a text that has to be a whole number and is none is refused. -/
theorem convert_eq_none_iff : c.convert t = none ↔ c = .whole ∧ ¬ t.IsWhole := by
  by_cases easy : c = .whole
  · subst easy
    rw [Option.eq_none_iff_forall_not_mem]
    simp only [Option.mem_def, convert_whole_iff, true_and, Text.IsWhole]
    constructor
    · rintro none ⟨cs, z, same, written⟩
      exact none (.int z) ⟨cs, z, same, written, rfl⟩
    · rintro none v ⟨cs, z, same, written, -⟩
      exact none ⟨cs, z, same, written⟩
  · obtain ⟨v, converted⟩ := exists_convert easy t
    simp [converted, easy]

end Conversion

namespace Environment

variable {env : Environment} {o : Override} {os : List Override}

theorem refuses_iff :
    env.Refuses o ↔ ∃ t, env.lookup o.name = some t ∧ o.conversion.convert t = none := by
  simp only [Refuses, Conversion.convert_eq_none_iff]
  constructor
  · rintro ⟨whole, t, isSet, odd⟩
    exact ⟨t, isSet, whole, odd⟩
  · rintro ⟨t, isSet, whole, odd⟩
    exact ⟨whole, t, isSet, odd⟩

theorem not_refuses_iff :
    ¬ env.Refuses o ↔
      ∀ t, env.lookup o.name = some t → ∃ v, o.conversion.convert t = some v := by
  simp only [refuses_iff, not_exists, not_and, ← ne_eq, Option.ne_none_iff_exists']

/-- Where some overrides have distinct settings, each gives its own setting its value. -/
theorem valueAmong?_of_mem (distinct : (os.map (·.field)).Nodup) (member : o ∈ os) :
    env.valueAmong? os o.field = (env.lookup o.name).bind o.conversion.convert := by
  cases found : os.find? (·.field = o.field) with
  | none => simpa using List.find?_eq_none.mp found o member
  | some o' =>
      have same : o'.field = o.field := by simpa using List.find?_some found
      obtain rfl := List.inj_on_of_nodup_map distinct (List.mem_of_find?_eq_some found) member same
      rw [valueAmong?, found, Option.bind_some]

theorem valueAmong?_of_unset {f : Field}
    (unset : ∀ o ∈ os, o.field = f → env.lookup o.name = none) : env.valueAmong? os f = none := by
  cases found : os.find? (·.field = f) with
  | none => rw [valueAmong?, found, Option.bind_none]
  | some o =>
      have same : o.field = f := by simpa using List.find?_some found
      rw [valueAmong?, found, Option.bind_some, unset o (List.mem_of_find?_eq_some found) same,
        Option.bind_none]

end Environment

namespace Settings

variable {env env' : Environment} {o : Override} {os before after : List Override}
  {s : Settings} {t : Text} {fault : Fault}

/-! ## Overrides in two parts -/

/-- Overrides are made one after the other, as long as none is refused. -/
theorem overrideFrom_append (accepted : ∀ o ∈ before, ¬ env.Refuses o) (after : List Override)
    (s : Settings) :
    overrideFrom env (before ++ after) s =
      overrideFrom env after (overrideFrom env before s).1 := by
  induction before generalizing s with
  | nil => rfl
  | cons o before ih =>
      obtain ⟨first, others⟩ := List.forall_mem_cons.mp accepted
      cases isSet : env.lookup o.name with
      | none => rw [List.cons_append, overrideFrom_unset isSet, overrideFrom_unset isSet, ih others]
      | some t =>
          obtain ⟨v, converted⟩ := Environment.not_refuses_iff.mp first t isSet
          rw [List.cons_append, overrideFrom_set isSet converted, overrideFrom_set isSet converted,
            ih others]

/-- Overrides depend on their own variables only. -/
theorem overrideFrom_congr (same : ∀ o ∈ os, env'.lookup o.name = env.lookup o.name)
    (s : Settings) : overrideFrom env' os s = overrideFrom env os s := by
  induction os generalizing s with
  | nil => rfl
  | cons o os ih =>
      obtain ⟨first, others⟩ := List.forall_mem_cons.mp same
      simp only [overrideFrom, first, ih others]

/-- Overrides none of which is refused give their settings the values of their variables. -/
theorem overrideFrom_of_accepted (distinct : (os.map (·.field)).Nodup)
    (accepted : ∀ o ∈ os, ¬ env.Refuses o) (s : Settings) :
    overrideFrom env os s = (⟨fun f => (env.valueAmong? os f).getD (s.get f)⟩, none) :=
  overrideFrom_of_valid distinct
    (fun o member => Environment.not_refuses_iff.mp (accepted o member)) s

/-! ## The first refused variable -/

/-- Overrides up to the first that is refused are made; the refused one is the fault. -/
theorem overrideFrom_refused_behind (accepted : ∀ o ∈ before, ¬ env.Refuses o)
    (refused : env.Refuses o) (isSet : env.lookup o.name = some t) (after : List Override)
    (s : Settings) :
    overrideFrom env (before ++ o :: after) s =
      ((overrideFrom env before s).1, some (.badVariable o.name t)) := by
  obtain ⟨t', isSet', odd⟩ := Environment.refuses_iff.mp refused
  cases isSet.symm.trans isSet'
  rw [overrideFrom_append accepted, overrideFrom_refused isSet odd]

theorem exists_fault_iff (s : Settings) :
    (∃ fault, (overrideFrom env os s).2 = some fault) ↔ ∃ o ∈ os, env.Refuses o := by
  constructor
  · rintro ⟨fault, stopped⟩
    by_contra none
    have accepted : ∀ o ∈ os, ¬ env.Refuses o := fun o member refused => none ⟨o, member, refused⟩
    have all := overrideFrom_append accepted [] s
    rw [List.append_nil] at all
    rw [all] at stopped
    cases stopped
  · intro refused
    obtain ⟨before, o, after, rfl, accepted, refused⟩ := exists_first refused
    obtain ⟨t, isSet, -⟩ := refused.2
    exact ⟨_, congrArg Prod.snd (overrideFrom_refused_behind accepted refused isSet after s)⟩

/-! ## The second try -/

/-- Going on from settings that some overrides were made on is starting again, if the variables of
those overrides are still the same. -/
theorem overrideFrom_again_from (distinct : (before.map (·.field)).Nodup)
    (accepted : ∀ o ∈ before, ¬ env.Refuses o)
    (same : ∀ o ∈ before, env'.lookup o.name = env.lookup o.name) (after : List Override)
    (s : Settings) :
    overrideFrom env' (before ++ after) (overrideFrom env before s).1 =
      overrideFrom env' (before ++ after) s := by
  have accepted' : ∀ o ∈ before, ¬ env'.Refuses o := by
    intro o member
    rw [Environment.Refuses, same o member]
    exact accepted o member
  rw [overrideFrom_append accepted', overrideFrom_append accepted', overrideFrom_congr same,
    overrideFrom_congr same, overrideFrom_again distinct]

/-- Overriding fails exactly if a variable that has to hold a whole number is set and holds none.
The fault then names the first such variable, in the order of the overrides, with its text. At that
moment the settings of the variables before it that are set have their converted values, and all
others their old ones. If overriding is tried again in an environment in which those variables are
as before, it comes to what it comes to with the original settings; where nothing is left to be
refused, it succeeds. -/
theorem override_stops_at_first_refused (env : Environment) (s : Settings) :
    ((∃ fault, (s.override env).2 = some fault) ↔ ∃ o ∈ overrides, env.Refuses o) ∧
    ∀ fault, (s.override env).2 = some fault →
      ∃ (before : List Override) (o : Override) (after : List Override) (t : Text),
        overrides = before ++ o :: after ∧ (∀ earlier ∈ before, ¬ env.Refuses earlier) ∧
        o.conversion = .whole ∧ env.lookup o.name = some t ∧ ¬ t.IsWhole ∧
        fault = .badVariable o.name t ∧
        fault.message = "Invalid value for " ++ o.name ++ ": " ++ t.quoted ∧
        (∀ earlier ∈ before, ∀ t', env.lookup earlier.name = some t' →
          earlier.conversion.convert t' = some ((s.override env).1.get earlier.field)) ∧
        (∀ f : Field, (∀ earlier ∈ before, earlier.field = f → env.lookup earlier.name = none) →
          (s.override env).1.get f = s.get f) ∧
        ∀ env' : Environment,
          (∀ earlier ∈ before, env'.lookup earlier.name = env.lookup earlier.name) →
          (s.override env).1.override env' = s.override env' ∧
            ((∀ o ∈ overrides, ¬ env'.Refuses o) →
              ((s.override env).1.override env').2 = none) := by
  refine ⟨exists_fault_iff s, fun fault stopped => ?_⟩
  obtain ⟨before, o, after, split, accepted, refused⟩ :=
    exists_first ((exists_fault_iff s).mp ⟨fault, stopped⟩)
  obtain ⟨whole, t, isSet, odd⟩ := refused
  have distinct : (before.map (·.field)).Nodup := by
    have all := nodup_fields_overrides
    rw [split, List.map_append] at all
    exact all.of_append_left
  -- What is known about overriding up to the refused variable, and about the fault.
  have made := overrideFrom_of_accepted distinct accepted s
  have comes := overrideFrom_refused_behind accepted ⟨whole, t, isSet, odd⟩ isSet after s
  rw [← split] at comes
  rw [override, comes] at stopped
  obtain rfl := (Option.some.inj stopped).symm
  refine ⟨before, o, after, t, split, accepted, whole, isSet, odd, rfl, rfl, ?_, ?_, ?_⟩
  · intro earlier member t' isSet'
    obtain ⟨v, converted⟩ := Environment.not_refuses_iff.mp (accepted earlier member) t' isSet'
    rw [override, comes, made, converted]
    simp only [Environment.valueAmong?_of_mem distinct member, isSet', Option.bind_some, converted,
      Option.getD_some]
  · intro f unset
    rw [override, comes, made]
    simp only [Environment.valueAmong?_of_unset unset, Option.getD_none]
  · intro env' same
    have again := overrideFrom_again_from distinct accepted same (o :: after) s
    rw [← split] at again
    have retried : (s.override env).1.override env' = s.override env' := by
      rw [override, override, comes]
      exact again
    refine ⟨retried, fun valid => ?_⟩
    rw [retried, override, overrideFrom_of_accepted nodup_fields_overrides valid]

/-- Two variables are refused, one after the other, and both are mended before the second try. -/
theorem override_stops_at_first_refused_twice :
    let s : Settings := .default
    let env : Environment := [("DEVUTILS_CLOC_SKIP_HIDDEN", "no"),
      ("DEVUTILS_HEXDUMP_BYTES_PER_LINE", "0x10"), ("DEVUTILS_CHECKSUM_CHUNK_SIZE", "8k")]
    let env' : Environment := [("DEVUTILS_CLOC_SKIP_HIDDEN", "no"),
      ("DEVUTILS_HEXDUMP_BYTES_PER_LINE", "16"), ("DEVUTILS_CHECKSUM_CHUNK_SIZE", " 8_192")]
    (s.override env).2 = some (.badVariable "DEVUTILS_CHECKSUM_CHUNK_SIZE" "8k") ∧
      (s.override env).1.override env' = s.override env' ∧
      ((s.override env).1.override env').2 = none := by
  intro s env env'
  have stopped :
      (s.override env).2 = some (.badVariable "DEVUTILS_CHECKSUM_CHUNK_SIZE" "8k") := by
    cbv
  have mended : (s.override env').2 = none := by
    cbv
  obtain ⟨before, o, after, t, split, accepted, -, -, -, -, -, -, -, again⟩ :=
    (override_stops_at_first_refused env s).2 _ stopped
  have same : ∀ earlier ∈ before, env'.lookup earlier.name = env.lookup earlier.name := by
    intro earlier member
    have allowed := accepted earlier member
    have inside : earlier ∈ overrides := split ▸ List.mem_append_left _ member
    simp only [overrides, List.mem_cons, List.not_mem_nil, or_false] at inside
    obtain rfl | rfl | rfl | rfl | rfl | rfl | rfl | rfl | rfl := inside
    · cbv
    · cbv
    · cbv
    · cbv
    · exact absurd (Environment.refuses_iff.mpr ⟨"8k", by cbv, by cbv⟩) allowed
    · cbv
    · exact absurd (Environment.refuses_iff.mpr ⟨"0x10", by cbv, by cbv⟩) allowed
    · cbv
    · cbv
  obtain ⟨retried, -⟩ := again env' same
  exact ⟨stopped, retried, (congrArg Prod.snd retried).trans mended⟩

end Settings

end Bytewise
