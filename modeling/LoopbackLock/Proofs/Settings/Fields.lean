import LoopbackLock.Settings.Basic

/-!
# Settings field by field

A document and the environment replace one field after the other. `Settings.withField` is that
replacement, from settings that are to be reached; settings agree in a field that has been taken
over, and keep every other field (`agree_withField`, `agree_withField_of_ne`).
-/

namespace LoopbackLock

/-- The settings agree in a field. -/
def Field.Agree (f : Field) (s t : Settings) : Prop :=
  match f with
  | .host => s.host = t.host
  | .port => s.port = t.port
  | .challengeTimeout => s.challengeTimeout = t.challengeTimeout
  | .waitTimeout => s.waitTimeout = t.waitTimeout
  | .acceptPoll => s.acceptPoll = t.acceptPoll
  | .onVanished => s.onVanished = t.onVanished

namespace Field

variable {f g : Field} {s t u : Settings}

theorem mem_all (f : Field) : f ∈ Field.all := by cases f <;> decide

theorem Agree.refl (f : Field) (s : Settings) : f.Agree s s := by cases f <;> rfl

theorem Agree.symm (h : f.Agree s t) : f.Agree t s := by
  cases f <;> exact Eq.symm h

theorem Agree.trans (h : f.Agree s t) (h' : f.Agree t u) : f.Agree s u := by
  cases f <;> exact Eq.trans h h'

/-- Settings that agree in every field are the same. -/
theorem eq_of_agree (h : ∀ f : Field, f.Agree s t) : s = t := by
  cases s
  cases t
  simp only [Settings.mk.injEq]
  exact ⟨h .host, h .port, h .challengeTimeout, h .waitTimeout, h .acceptPoll, h .onVanished⟩

end Field

namespace Settings

/-- The settings with one field taken over from others. -/
def withField (base s : Settings) : Field → Settings
  | .host => { base with host := s.host }
  | .port => { base with port := s.port }
  | .challengeTimeout => { base with challengeTimeout := s.challengeTimeout }
  | .waitTimeout => { base with waitTimeout := s.waitTimeout }
  | .acceptPoll => { base with acceptPoll := s.acceptPoll }
  | .onVanished => { base with onVanished := s.onVanished }

/-- Nothing is left of settings from which every field is taken over. -/
theorem foldl_withField (base s : Settings) : Field.all.foldl (·.withField s) base = s := rfl

theorem agree_withField (base s : Settings) (f : Field) : f.Agree (base.withField s f) s := by
  cases f <;> rfl

theorem agree_withField_of_ne {f g : Field} (h : g ≠ f) (base s : Settings) :
    g.Agree (base.withField s f) base := by
  cases f <;> cases g <;> first | rfl | exact absurd rfl h

end Settings

end LoopbackLock
