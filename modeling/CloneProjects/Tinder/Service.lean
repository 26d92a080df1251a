import CloneProjects.Tinder.App
import CloneProjects.Tinder.Register.Screen

/-!
# The service

Any number of devices run the app over one Firebase project. A device shows the main screen, opens Settings
controllers, presents a Register controller when nobody is signed in, and is killed and launched again; Firebase
answers its fetches and queries with what is stored at that moment.
-/

namespace CloneProjects.Tinder

/-- Firestore's test of the two `whereField`s: `Age` is a number between the bounds. -/
def Main.Query.matches (query : Main.Query) (infos : Infos) : Bool :=
  match infos "Age" with
  | some (.integer n) => query.searchingMinAge ≤ n && n ≤ query.searchingMaxAge
  | some (.double x) => (query.searchingMinAge : ℚ) ≤ x && x ≤ (query.searchingMaxAge : ℚ)
  | _ => false

/-- The writes whose callback has not fired. -/
def Settings.World.pendingWrites (w : Settings.World) : List (String × Infos) :=
  w.saves.filterMap fun save => if save.pending then save.request else none

def Register.World.pendingWrites (w : Register.World) : List (String × Infos) :=
  w.calls.filterMap fun call =>
    match call.awaiting with
    | some (.setData userID dataToBeAdded) => some (userID, dataToBeAdded)
    | _ => none

def Register.World.within (w : Register.World) (accounts : List Register.Account) (currentUser : Option String)
    (users : String → Option Infos) : Register.World :=
  { w with accounts := accounts, currentUser := currentUser, users := users }

namespace Service

structure Device where
  app : App.World
  /-- The Register controllers presented since the launch. -/
  registers : List Register.World
  /-- The user whose document each fetch of the main screen asks for. -/
  asked : List String
  /-- The writes under way when the app was killed: Firestore keeps them and sends them later. -/
  outbox : List (String × Infos)

structure World where
  accounts : List Register.Account
  /-- The collection `Users`. -/
  users : String → Option Infos
  devices : List Device

inductive DeviceEvent
  /-- The app is killed and started again; Firebase restores the sign-in. -/
  | launched
  | viewDidAppear
  | app (e : App.Event)
  | fetchAnswered (fetch : ℕ) (error : Option SwiftError)
  /-- A query brings an error or the documents of these keys. -/
  | queryAnswered (query : ℕ) (answer : Except SwiftError (List String))
  | register (controller : ℕ) (e : Register.Event)
  | outboxSent (write : ℕ) (accepted : Bool)

inductive Event
  /-- The app is started on a new device. -/
  | installed
  | device (d : ℕ) (e : DeviceEvent)

/-! ### A device -/

def Device.pendingWrites (device : Device) : List (String × Infos) :=
  device.app.settings.flatMap Settings.World.pendingWrites ++ device.registers.flatMap Register.World.pendingWrites

/-- `scene(_:willConnectTo:options:)` makes the main screen. -/
def Device.launched (device : Device) (users : String → Option Infos) : Device where
  app := App.opened device.app.uid users
  registers := []
  asked := device.app.uid.toList
  outbox := device.outbox ++ device.pendingWrites

/-- `viewDidAppear` of the main screen: without a user it presents a Register controller. -/
def Device.viewDidAppear (device : Device) (accounts : List Register.Account) (users : String → Option Infos) :
    Device :=
  match device.app.uid with
  | none => { device with registers := device.registers ++ [Register.opened accounts none users] }
  | some _ => device

/-- The fetch an event issues. -/
def Device.asks (device : Device) : App.Event → List String
  | .main .settingsSaved => device.app.uid.toList
  | _ => []

/-- What a device does by itself: nothing that another one or Firebase does to it. -/
def isLocal : App.Event → Bool
  | .elsewhere _ _ | .main (.fetchCallback _ _) | .main (.queryCallback _ _) => false
  | _ => true

/-! ### The service -/

/-- The empty project. -/
def opened : World := ⟨[], fun _ => none, []⟩

def World.appStepped (w : World) (d : ℕ) (device : Device) (e : App.Event) (app : App.World) : World :=
  { w with
    users := app.users
    devices := w.devices.set d { device with app := app, asked := device.asked ++ device.asks e } }

def World.registerStepped (w : World) (d : ℕ) (device : Device) (k : ℕ) (register : Register.World) : World where
  accounts := register.accounts
  users := register.users
  devices := w.devices.set d
    { device with
      app := { device.app with uid := register.currentUser }
      registers := device.registers.set k register }

/-- The keys of a result are those of stored documents that match, each once. -/
def World.Answers (w : World) (query : Main.Query) (keys : List String) : Prop :=
  keys.Nodup ∧ ∀ key ∈ keys, (w.users key).any query.matches = true

instance (w : World) (query : Main.Query) (keys : List String) : Decidable (w.Answers query keys) :=
  inferInstanceAs (Decidable (_ ∧ _))

section step
variable (accepts : String → Bool)

/-- The app of a device steps over the documents of the service. -/
def World.appStep (w : World) (d : ℕ) (device : Device) (e : App.Event) : Option World :=
  (App.step accepts { device.app with users := w.users } e).map (w.appStepped d device e)

def World.deviceStep (w : World) (d : ℕ) (device : Device) : DeviceEvent → Option World
  | .launched => some { w with devices := w.devices.set d (device.launched w.users) }
  | .viewDidAppear => some { w with devices := w.devices.set d (device.viewDidAppear w.accounts w.users) }
  | .app e => if isLocal e then w.appStep accepts d device e else none
  | .fetchAnswered i error => do
    let uid ← device.asked[i]?
    w.appStep accepts d device (.main (.fetchCallback i
      (match error with
        | some error => .error error
        | none => .ok (w.users uid))))
  | .queryAnswered j (.error error) => w.appStep accepts d device (.main (.queryCallback j (.error error)))
  | .queryAnswered j (.ok keys) => do
    let query ← device.app.main.queries[j]?
    if w.Answers query keys then
      w.appStep accepts d device (.main (.queryCallback j (.ok (keys.filterMap w.users))))
    else none
  | .register k e => do
    let register ← device.registers[k]?
    let register ← Register.step (register.within w.accounts device.app.uid w.users) e
    some (w.registerStepped d device k register)
  | .outboxSent i accepted => do
    let (uid, infos) ← device.outbox[i]?
    some { w with
      users := if accepted then Function.update w.users uid (some infos) else w.users
      devices := w.devices.set d { device with outbox := device.outbox.eraseIdx i } }

def step (w : World) : Event → Option World
  | .installed => some { w with devices := w.devices ++ [⟨App.opened none w.users, [], [], []⟩] }
  | .device d e => do
    let device ← w.devices[d]?
    w.deviceStep accepts d device e

end step

end Service

end CloneProjects.Tinder
