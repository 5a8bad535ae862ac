import Mathlib.Data.List.Induction

/-! Command lines of flags that each take the word behind them. -/
namespace HollowGrid.Argv

/-- The flags F of a program over words W, and what each does to its options σ. -/
structure Grammar (W F σ : Type) where
  help : W → Bool
  flagOf : W → Option F
  word : F → W
  set : F → W → σ → σ
  spelled : ∀ w f, flagOf w = some f ↔ word f = w
  apart : ∀ f, help (word f) = false

inductive Parsed (σ : Type)
  | done (options : σ)
  | help
  | bad

variable {W F σ : Type} (g : Grammar W F σ)

def read (options : σ) : List W → Parsed σ
  | [] => .done options
  | w :: rest =>
    if g.help w then .help
    else
      match g.flagOf w with
      | none => .bad
      | some f =>
        match rest with
        | [] => .bad
        | value :: rest => read (g.set f value options) rest

def render (settings : List (F × W)) : List W :=
  settings.flatMap fun setting => [g.word setting.1, setting.2]

def settle (options : σ) (settings : List (F × W)) : σ :=
  settings.foldl (fun options setting => g.set setting.1 setting.2 options) options

/-- A word where a flag should stand, or a flag with nothing behind it. -/
def Stuck (back : List W) : Prop :=
  ∃ w rest, back = w :: rest ∧ g.help w = false ∧ ∀ f, g.word f = w → rest = []

def Asks (back : List W) : Prop := ∃ w rest, back = w :: rest ∧ g.help w = true

variable {g} {options : σ}

theorem read_setting (f : F) (value : W) (rest : List W) :
    read g options (g.word f :: value :: rest) = read g (g.set f value options) rest := by
  rw [read, g.apart f, if_neg Bool.false_ne_true, (g.spelled (g.word f) f).mpr rfl]

/-- The settings a line starts with are made one after the other. -/
theorem read_render (settings : List (F × W)) (back : List W) :
    read g options (render g settings ++ back) = read g (settle g options settings) back := by
  induction settings generalizing options with
  | nil => rfl
  | cons setting settings ih =>
    change read g options (g.word setting.1 :: setting.2 :: (render g settings ++ back)) = _
    rw [read_setting, ih]
    rfl

theorem read_asks {back : List W} (asks : Asks g back) : read g options back = .help := by
  obtain ⟨w, rest, rfl, help⟩ := asks
  rw [read, if_pos help]

theorem read_stuck {back : List W} (stuck : Stuck g back) : read g options back = .bad := by
  obtain ⟨w, rest, rfl, no_help, last⟩ := stuck
  rw [read, no_help, if_neg Bool.false_ne_true]
  cases named : g.flagOf w with
  | none => rfl
  | some f =>
    rw [last f ((g.spelled w f).mp named)]

theorem read_cases (options : σ) (line : List W) :
    ∃ settings back, line = render g settings ++ back ∧
      ((back = [] ∧ read g options line = .done (settle g options settings)) ∨
        (Asks g back ∧ read g options line = .help) ∨
        (Stuck g back ∧ read g options line = .bad)) := by
  induction options, line using read.induct g with
  | case1 options => exact ⟨[], [], rfl, .inl ⟨rfl, rfl⟩⟩
  | case2 options w rest help =>
    have asks : Asks g (w :: rest) := ⟨w, rest, rfl, help⟩
    exact ⟨[], w :: rest, rfl, .inr (.inl ⟨asks, read_asks asks⟩)⟩
  | case3 options w rest no_help unknown =>
    have stuck : Stuck g (w :: rest) := by
      refine ⟨w, rest, rfl, Bool.eq_false_iff.mpr no_help, fun f named => ?_⟩
      cases ((g.spelled w f).mpr named).symm.trans unknown
    exact ⟨[], w :: rest, rfl, .inr (.inr ⟨stuck, read_stuck stuck⟩)⟩
  | case4 options w no_help f named =>
    have stuck : Stuck g [w] := ⟨w, [], rfl, Bool.eq_false_iff.mpr no_help, fun _ _ => rfl⟩
    exact ⟨[], [w], rfl, .inr (.inr ⟨stuck, read_stuck stuck⟩)⟩
  | case5 options w no_help f named value rest ih =>
    obtain ⟨settings, back, same, ends⟩ := ih
    have word : g.word f = w := (g.spelled w f).mp named
    refine ⟨(f, value) :: settings, back, by rw [same, ← word]; rfl, ?_⟩
    rw [← word, read_setting]
    exact ends

theorem read_done_iff (line : List W) (options' : σ) : read g options line = .done options' ↔
    ∃ settings, line = render g settings ∧ settle g options settings = options' := by
  constructor
  · intro done
    obtain ⟨settings, back, rfl, ⟨rfl, read⟩ | ⟨_, read⟩ | ⟨_, read⟩⟩ :=
      read_cases (g := g) options line
    · exact ⟨settings, List.append_nil _, Parsed.done.inj (read.symm.trans done)⟩
    · cases read.symm.trans done
    · cases read.symm.trans done
  · rintro ⟨settings, rfl, rfl⟩
    rw [← List.append_nil (render g settings), read_render]
    rfl

theorem read_help_iff (line : List W) : read g options line = .help ↔
    ∃ settings back, line = render g settings ++ back ∧ Asks g back := by
  constructor
  · intro helped
    obtain ⟨settings, back, same, ⟨_, read⟩ | ⟨asks, _⟩ | ⟨_, read⟩⟩ :=
      read_cases (g := g) options line
    · cases read.symm.trans helped
    · exact ⟨settings, back, same, asks⟩
    · cases read.symm.trans helped
  · rintro ⟨settings, back, rfl, asks⟩
    rw [read_render, read_asks asks]

theorem read_bad_iff (line : List W) : read g options line = .bad ↔
    ∃ settings back, line = render g settings ++ back ∧ Stuck g back := by
  constructor
  · intro refused
    obtain ⟨settings, back, same, ⟨_, read⟩ | ⟨_, read⟩ | ⟨stuck, _⟩⟩ :=
      read_cases (g := g) options line
    · cases read.symm.trans refused
    · cases read.symm.trans refused
    · exact ⟨settings, back, same, stuck⟩
  · rintro ⟨settings, back, rfl, stuck⟩
    rw [read_render, read_stuck stuck]

def lastOf [DecidableEq F] (f : F) (settings : List (F × W)) : Option W :=
  settings.foldl (fun found setting => if setting.1 = f then some setting.2 else found) none

theorem settle_last [DecidableEq F] {V : Type} (value : F → σ → V) (made : W → V)
    (own : ∀ f w options, value f (g.set f w options) = made w)
    (other : ∀ f f' w options, f' ≠ f → value f (g.set f' w options) = value f options)
    (settings : List (F × W)) (f : F) : value f (settle g options settings) =
      ((lastOf f settings).map made).getD (value f options) := by
  induction settings using List.reverseRecOn with
  | nil => rfl
  | append_singleton settings setting ih =>
    rw [settle, lastOf, List.foldl_append, List.foldl_append] at *
    simp only [List.foldl_cons, List.foldl_nil]
    by_cases mine : setting.1 = f
    · rw [if_pos mine, mine, own]
      rfl
    · rw [if_neg mine, other f _ _ _ mine]
      exact ih

end HollowGrid.Argv
