import Mathlib.Data.Option.Basic

/-!
# Edit buffers

A form over a stored document. It loads a copy of the document once, edits act on the copy, and a save writes
a whole document, encoded from the copy or from nothing while there is none. `Kept` is the invariant of what
the edits leave alone: a part of the document that no edit changes is the same in the copy, in the pending
writes and in the store, as long as no save is made before the load of an existing document.
-/

namespace CloneProjects.EditBuffer

variable {D C V : Type*}

/-- How copies are made of documents and documents of copies. -/
structure Codec (D C : Type*) where
  decode : D → C
  encode : Option C → D

structure Buffer (D C : Type*) where
  stored : Option D
  copy : Option C
  loading : Bool
  writes : List D

inductive Action (D C : Type*)
  | idle
  | load
  | loadFailed
  | edit (f : C → C)
  | save
  | apply (d : D)

/-- What an action does to a copy that has been loaded. -/
def Action.onCopy : Action D C → C → C
  | .edit f, c => f c
  | _, c => c

inductive Step (codec : Codec D C) (b : Buffer D C) : Action D C → Buffer D C → Prop
  | idle : Step codec b .idle b
  | load {d : D} (hloading : b.loading = true) (hstored : b.stored = some d) :
    Step codec b .load { b with loading := false, copy := some (codec.decode d) }
  | loadFailed : Step codec b .loadFailed { b with loading := false }
  | edit (f : C → C) : Step codec b (.edit f) { b with copy := b.copy.map f }
  | save : Step codec b .save { b with writes := b.writes ++ [codec.encode b.copy] }
  | apply {d : D} (hwrite : d ∈ b.writes) : Step codec b (.apply d) { b with stored := some d }

section
variable {codec : Codec D C} {b b' : Buffer D C} {action : Action D C}

/-- The load is over once there is a copy. -/
def Buffer.LoadsOnce (b : Buffer D C) : Prop := b.loading = true → b.copy = none

theorem Step.loadsOnce (hstep : Step codec b action b') (h : b.LoadsOnce) : b'.LoadsOnce := by
  cases hstep with
  | idle => exact h
  | load => exact fun hloading => by cases hloading
  | loadFailed => exact fun hloading => by cases hloading
  | edit f => exact fun hloading => by simp [h hloading]
  | save => exact h
  | apply => exact h

/-- A loaded copy is changed by edits alone. -/
theorem Step.copy_eq (hstep : Step codec b action b') (h : b.LoadsOnce) {c : C} (hcopy : b.copy = some c) :
    b'.copy = some (action.onCopy c) := by
  cases hstep with
  | load hloading _ =>
    rw [h hloading] at hcopy
    cases hcopy
  | edit f => simp [hcopy, Action.onCopy]
  | _ => exact hcopy

/-- What a save without a single edit would write. -/
def Codec.base (codec : Codec D C) (start : Option D) : D := codec.encode (start.map codec.decode)

/-- A part of the document, read by `read`, in a buffer opened over the document `start`. -/
structure Kept (codec : Codec D C) (read : D → Option V) (start : Option D) (b : Buffer D C) : Prop where
  loadsOnce : b.LoadsOnce
  copy : ∀ c, b.copy = some c → read (codec.encode (some c)) = read (codec.base start)
  writes : ∀ d ∈ b.writes, read d = read (codec.base start)
  stored : ∀ d, b.stored = some d → read d = none ∨ read d = read (codec.base start)
  /-- Before the load, whatever was saved was saved over nothing and encodes nothing. -/
  unloaded : b.copy = none → b.stored = start ∧ b.writes = [] ∨
    start = none ∧ (∀ d ∈ b.writes, d = codec.encode none) ∧ ∀ d, b.stored = some d → d = codec.encode none

variable {read : D → Option V} {start : Option D}

theorem kept_start {loading : Bool} (htyped : ∀ d, start = some d →
    read d = none ∨ read (codec.encode (some (codec.decode d))) = read d) :
    Kept codec read start ⟨start, none, loading, []⟩ where
  loadsOnce _ := rfl
  copy c hcopy := by cases hcopy
  writes d hmem := by cases hmem
  stored d hstored := by
    refine (htyped d hstored).imp id fun heq => ?_
    simp only at hstored
    rw [Codec.base, hstored]
    exact heq.symm
  unloaded _ := .inl ⟨rfl, rfl⟩

/-- Any action keeps the part that its edit keeps, a save if there is a copy or was no document. -/
theorem Step.kept (hstep : Step codec b action b') (h : Kept codec read start b)
    (hstable : read (codec.encode (some (codec.decode (codec.encode none)))) = read (codec.encode none))
    (hedit : ∀ f, action = .edit f → ∀ c, read (codec.encode (some (f c))) = read (codec.encode (some c)))
    (hsave : action = .save → b.copy.isSome ∨ start = none) : Kept codec read start b' := by
  have honce := hstep.loadsOnce h.loadsOnce
  cases hstep with
  | idle => exact h
  | @load d hloading hstored =>
    refine ⟨honce, fun c hc => ?_, h.writes, h.stored, fun hc => by cases hc⟩
    cases hc
    rcases h.unloaded (h.loadsOnce hloading) with ⟨hstart, _⟩ | ⟨hstart, _, hnone⟩
    · rw [Codec.base, ← hstart, hstored]
      rfl
    · rw [hnone d hstored, Codec.base, hstart]
      exact hstable
  | loadFailed => exact ⟨honce, h.copy, h.writes, h.stored, h.unloaded⟩
  | edit f =>
    refine ⟨honce, fun c hc => ?_, h.writes, h.stored, fun hc => h.unloaded (Option.map_eq_none_iff.mp hc)⟩
    obtain ⟨c₀, hc₀, rfl⟩ := Option.map_eq_some_iff.mp hc
    rw [hedit f rfl c₀]
    exact h.copy c₀ hc₀
  | save =>
    have hwrite : read (codec.encode b.copy) = read (codec.base start) := by
      cases hcopy : b.copy with
      | some c => exact h.copy c hcopy
      | none =>
        rw [(hsave rfl).resolve_left (by simp [hcopy])]
        rfl
    refine ⟨honce, h.copy, fun d hd => ?_, h.stored, fun hc => ?_⟩
    · rcases List.mem_append.mp hd with hd | hd
      · exact h.writes d hd
      · rw [List.mem_singleton.mp hd]
        exact hwrite
    · have hstart := (hsave rfl).resolve_left (by simp [show b.copy = none from hc])
      refine .inr ⟨hstart, fun d hd => ?_, fun d hd => ?_⟩
      · rcases List.mem_append.mp hd with hd | hd
        · rcases h.unloaded hc with ⟨_, hempty⟩ | ⟨_, hnone, _⟩
          · rw [hempty] at hd
            cases hd
          · exact hnone d hd
        · rw [List.mem_singleton.mp hd, show b.copy = none from hc]
      · rcases h.unloaded hc with ⟨hsame, _⟩ | ⟨_, _, hnone⟩
        · rw [show b.stored = some d from hd, hstart] at hsame
          cases hsame
        · exact hnone d hd
  | @apply d hwrite =>
    refine ⟨honce, h.copy, h.writes, fun d' hd' => ?_, fun hc => ?_⟩
    · cases hd'
      exact .inr (h.writes d hwrite)
    · rcases h.unloaded hc with ⟨_, hempty⟩ | ⟨hstart, hnone, _⟩
      · rw [hempty] at hwrite
        cases hwrite
      · refine .inr ⟨hstart, hnone, fun d' hd' => ?_⟩
        cases hd'
        exact hnone d hwrite

/-- A write that is applied over a value finds the same value. -/
theorem Kept.apply_same (h : Kept codec read start b) {d d' : D} {v : V} (hwrite : d ∈ b.writes)
    (hstored : b.stored = some d') (hv : read d' = some v) : read d = some v := by
  rw [h.writes d hwrite]
  refine ((h.stored d' hstored).resolve_left ?_).symm.trans hv
  simp [hv]

end

end CloneProjects.EditBuffer
