import CloneProjects.Tinder.Main.Screen
import CloneProjects.Tinder.Settings.Screen

/-!
# The app after sign-in

The main screen and every Settings screen it has opened, over one signed-in account and one store. A screen
steps with the account and the documents of that moment put into its own state (`Settings.World.within`,
`Main.World.within`), and what it changes of them is taken back.
-/

namespace CloneProjects.Tinder

def Settings.World.within (w : Settings.World) (uid : Option String) (users : String → Option Infos) :
    Settings.World := { w with uid := uid, users := users }

def Main.World.within (w : Main.World) (uid : Option String) : Main.World := { w with uid := uid }

/-- The Saves that the delegate hears of with an event. -/
def Main.Event.heard : Main.Event → ℕ
  | .settingsSaved => 1
  | _ => 0

namespace App

structure World where
  /-- `Auth.auth().currentUser?.uid`. -/
  uid : Option String
  users : String → Option Infos
  main : Main.World
  /-- The Settings controllers opened so far; the callbacks of a closed one still fire. -/
  settings : List Settings.World
  /-- The Saves that succeeded and whose screen has not told the delegate yet. -/
  unheard : ℕ

inductive Event
  | pressSettingsButton
  | settings (controller : ℕ) (e : Settings.Event)
  | main (e : Main.Event)
  /-- The sign-in screens and other devices: another account, other documents. -/
  | elsewhere (uid : Option String) (users : String → Option Infos)

/-- The app is opened on the main screen. -/
def opened (uid : Option String) (users : String → Option Infos) : World :=
  ⟨uid, users, Main.viewDidLoad uid, [], 0⟩

/-- A Settings controller has stepped to `w'`. -/
def World.settingsStepped (app : World) (k : ℕ) (w w' : Settings.World) : World where
  uid := w'.uid
  users := w'.users
  main := app.main
  settings := app.settings.modify k fun _ => w'
  unheard := app.unheard + (w'.settingsSaved - w.settingsSaved)

section step
variable (accepts : String → Bool)

def step (app : World) : Event → Option World
  | .pressSettingsButton => some { app with settings := app.settings ++ [Settings.opened app.uid app.users] }
  | .settings k e => (app.settings[k]?).bind fun w =>
    (Settings.step accepts (w.within app.uid app.users) e).map (app.settingsStepped k w)
  | .main e =>
    if e.heard ≤ app.unheard then
      (Main.step accepts (app.main.within app.uid) e).map fun main =>
        { app with main := main, unheard := app.unheard - e.heard }
    else none
  | .elsewhere uid users => some { app with uid := uid, users := users }

end step

/-! ### What each event can do -/

section
variable {accepts : String → Bool} {app app' : World}

theorem step_settings {k : ℕ} {e : Settings.Event} (h : step accepts app (.settings k e) = some app') :
    ∃ w w', app.settings[k]? = some w ∧ Settings.step accepts (w.within app.uid app.users) e = some w' ∧
      app' = app.settingsStepped k w w' := by
  simp only [step, Option.bind_eq_some_iff, Option.map_eq_some_iff] at h
  obtain ⟨w, hw, w', hw', rfl⟩ := h
  exact ⟨w, w', hw, hw', rfl⟩

theorem step_main {e : Main.Event} (h : step accepts app (.main e) = some app') :
    ∃ main, Main.step accepts (app.main.within app.uid) e = some main ∧
      app' = { app with main := main, unheard := app.unheard - e.heard } := by
  simp only [step] at h
  split at h
  · obtain ⟨main, hmain, rfl⟩ := Option.map_eq_some_iff.mp h
    exact ⟨main, hmain, rfl⟩
  · cases h

end

end App

end CloneProjects.Tinder
