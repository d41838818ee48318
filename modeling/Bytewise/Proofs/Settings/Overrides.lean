import Bytewise.Settings.Environment

/-!
# Overrides by the environment

Every override has a setting of its own, so what the environment does can be said setting by
setting: if no variable is refused, a setting has the converted value of its variable, and its old
value if it has no variable or the variable is not set (`Settings.override_of_valid`). Overriding
again changes nothing, even after a refusal (`Settings.override_again`).
-/

namespace Bytewise

/-- Every variable that has to hold a whole number, and is set, holds one. -/
def Environment.Valid (env : Environment) : Prop :=
  ∀ o ∈ overrides, o.conversion = .whole → ∀ t, env.lookup o.name = some t →
    ∃ v, o.conversion.convert t = some v

/-- The value that one of some overrides gives a setting. -/
def Environment.valueAmong? (env : Environment) (os : List Override) (f : Field) : Option Value :=
  (os.find? (·.field = f)).bind fun o => (env.lookup o.name).bind o.conversion.convert

def Environment.value? (env : Environment) (f : Field) : Option Value :=
  env.valueAmong? overrides f

theorem nodup_fields_overrides : (overrides.map (·.field)).Nodup := by
  decide

/-- Only a whole number can be refused. -/
theorem Conversion.exists_convert {c : Conversion} (easy : c ≠ .whole) (t : Text) :
    ∃ v, c.convert t = some v := by
  cases c with
  | whole => exact absurd rfl easy
  | truth => exact ⟨_, rfl⟩
  | text => exact ⟨_, rfl⟩

namespace Settings

variable {env : Environment} {o : Override} {os : List Override} {f : Field} {s : Settings}
  {t : Text} {v : Value}

theorem set_get (s : Settings) (f : Field) : s.set f (s.get f) = s := by
  apply congrArg Settings.mk
  funext g
  by_cases same : g = f
  · simp [same]
  · simp [same]

/-! ## One override -/

theorem overrideFrom_unset (unset : env.lookup o.name = none) (os : List Override) (s : Settings) :
    overrideFrom env (o :: os) s = overrideFrom env os s := by
  rw [overrideFrom, unset]

theorem overrideFrom_set (isSet : env.lookup o.name = some t)
    (converted : o.conversion.convert t = some v) (os : List Override) (s : Settings) :
    overrideFrom env (o :: os) s = overrideFrom env os (s.set o.field v) := by
  simp only [overrideFrom, isSet, converted]

theorem overrideFrom_refused (isSet : env.lookup o.name = some t)
    (refused : o.conversion.convert t = none) (os : List Override) (s : Settings) :
    overrideFrom env (o :: os) s = (s, some (.badVariable o.name t)) := by
  simp only [overrideFrom, isSet, refused]

/-! ## All of them -/

/-- A setting without an override keeps its value. -/
theorem get_overrideFrom_of_not_mem (absent : f ∉ os.map (·.field)) (s : Settings) :
    (overrideFrom env os s).1.get f = s.get f := by
  induction os generalizing s with
  | nil => rfl
  | cons o os ih =>
      rw [List.map_cons, List.mem_cons, not_or] at absent
      cases isSet : env.lookup o.name with
      | none => rw [overrideFrom_unset isSet, ih absent.2]
      | some t =>
          cases converted : o.conversion.convert t with
          | none => rw [overrideFrom_refused isSet converted]
          | some v =>
              rw [overrideFrom_set isSet converted, ih absent.2, get_set_of_ne s v absent.1]

/-- If no variable is refused, every setting has the value that it is given, or its old one. -/
theorem overrideFrom_of_valid (distinct : (os.map (·.field)).Nodup)
    (valid : ∀ o ∈ os, ∀ t, env.lookup o.name = some t → ∃ v, o.conversion.convert t = some v)
    (s : Settings) :
    overrideFrom env os s = (⟨fun f => (env.valueAmong? os f).getD (s.get f)⟩, none) := by
  induction os generalizing s with
  | nil => rfl
  | cons o os ih =>
      rw [List.map_cons, List.nodup_cons] at distinct
      rw [List.forall_mem_cons] at valid
      have others := ih distinct.2 valid.2
      -- No other override has the setting of the first one.
      have own : env.valueAmong? os o.field = none := by
        rw [Environment.valueAmong?, List.find?_eq_none.mpr, Option.bind_none]
        intro o' member
        simpa using fun same : o'.field = o.field => distinct.1 (same ▸ List.mem_map_of_mem member)
      have later {g : Field} (differs : g ≠ o.field) :
          env.valueAmong? (o :: os) g = env.valueAmong? os g := by
        rw [Environment.valueAmong?, List.find?_cons_of_neg (by simpa using Ne.symm differs)]
        rfl
      have first : env.valueAmong? (o :: os) o.field =
          (env.lookup o.name).bind o.conversion.convert := by
        rw [Environment.valueAmong?, List.find?_cons_of_pos (by simp)]
        rfl
      cases isSet : env.lookup o.name with
      | none =>
          rw [overrideFrom_unset isSet, others]
          congr 2
          funext g
          by_cases same : g = o.field
          · rw [same, own, first, isSet, Option.bind_none]
          · rw [later same]
      | some t =>
          obtain ⟨v, converted⟩ := valid.1 t isSet
          rw [overrideFrom_set isSet converted, others]
          congr 2
          funext g
          by_cases same : g = o.field
          · rw [same, own, first, isSet, Option.bind_some, converted, get_set_self]
            rfl
          · rw [later same, get_set_of_ne s v same]

theorem override_of_valid (valid : env.Valid) (s : Settings) :
    s.override env = (⟨fun f => (env.value? f).getD (s.get f)⟩, none) := by
  refine overrideFrom_of_valid nodup_fields_overrides (fun o member t isSet => ?_) s
  by_cases whole : o.conversion = .whole
  · exact valid o member whole t isSet
  · exact Conversion.exists_convert whole t

/-- Making the same overrides again changes nothing and is refused at the same variable. -/
theorem overrideFrom_again (distinct : (os.map (·.field)).Nodup) (s : Settings) :
    overrideFrom env os (overrideFrom env os s).1 = overrideFrom env os s := by
  induction os generalizing s with
  | nil => rfl
  | cons o os ih =>
      rw [List.map_cons, List.nodup_cons] at distinct
      cases isSet : env.lookup o.name with
      | none =>
          simp only [overrideFrom_unset isSet]
          exact ih distinct.2 s
      | some t =>
          cases converted : o.conversion.convert t with
          | none => simp only [overrideFrom_refused isSet converted]
          | some v =>
              simp only [overrideFrom_set isSet converted]
              -- The value set first is still there, because no later override has its setting.
              have kept : (overrideFrom env os (s.set o.field v)).1.get o.field = v := by
                rw [get_overrideFrom_of_not_mem distinct.1, get_set_self]
              have same := set_get (overrideFrom env os (s.set o.field v)).1 o.field
              rw [kept] at same
              rw [same]
              exact ih distinct.2 _

theorem override_again (env : Environment) (s : Settings) :
    (s.override env).1.override env = s.override env :=
  overrideFrom_again nodup_fields_overrides s

end Settings

end Bytewise
