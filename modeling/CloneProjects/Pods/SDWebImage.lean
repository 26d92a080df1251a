import CloneProjects.Base.CallTable
import CloneProjects.Base.Run
import Mathlib.Data.Int.Notation
import Mathlib.Logic.Function.Basic

/-!
# SDWebImage

Pictures loaded by URL into image views that share one manager. A load asks the memory cache, then the disk on
the `ioQueue`, then the network; a new load of a view cancels the one before, and a cancelled load must not reach
the view, whichever of its callbacks is under way. A URL that failed for good is not tried again.
-/

namespace CloneProjects.SDWebImage

open EventRun (run Guarded lastOf)

/-- `absoluteString`, which is the cache key as well. -/
abbrev URL := String

structure NSError where
  code : ℤ
  deriving DecidableEq

/-- `shouldBlockFailedURL`: every error but those of the connection, as `Foundation` numbers them. -/
def NSError.shouldBlockFailedURL (error : NSError) : Bool :=
  -- `NotConnectedToInternet`, `Cancelled`, `TimedOut`, `InternationalRoamingOff`, `DataNotAllowed`,
  -- `CannotFindHost`, `CannotConnectToHost`, `NetworkConnectionLost`
  !([-1009, -999, -1001, -1018, -1020, -1003, -1004, -1005] : List ℤ).contains error.code

variable {Image : Type}

/-- How far a load has come. -/
inductive Stage (Image : Type)
  /-- `queryDiskBlock` waits on the `ioQueue`. -/
  | querying
  /-- It runs, past its test of `isCancelled`. -/
  | reading
  /-- `doneBlock` waits on the main queue. -/
  | queried (found : Option Image)
  | downloading
  | finished (answer : Option Image)
  deriving DecidableEq

/-- `SDWebImageCombinedOperation`, with the view and the URL its blocks have captured. -/
structure Operation (Image : Type) where
  view : ℕ
  url : URL
  isCancelled : Bool
  stage : Stage Image
  deriving DecidableEq

/-- A `UIImageView`: `operation` is its entry in `sd_operationDictionary`. -/
structure ImageView (Image : Type) where
  image : Option Image
  sd_imageURL : Option URL
  operation : Option ℕ

/-- The image views, and the shared manager with every operation it ever made. -/
structure World (Image : Type) where
  views : ℕ → ImageView Image
  operations : List (Operation Image)
  memCache : URL → Option Image
  failedURLs : List URL

namespace World

def setView (v : ℕ) (view : ImageView Image) (w : World Image) : World Image :=
  { w with views := Function.update w.views v view }

def setStage (i : ℕ) (stage : Stage Image) (w : World Image) : World Image :=
  { w with operations := w.operations.modify i fun op => { op with stage := stage } }

/-- `storeImage`, in memory. -/
def storeImage (url : URL) (image : Option Image) (w : World Image) : World Image :=
  match image with
  | some image => { w with memCache := Function.update w.memCache url (some image) }
  | none => w

def sd_cancelImageLoadOperation (v : ℕ) (w : World Image) : World Image :=
  match (w.views v).operation with
  | some i =>
    { w with operations := w.operations.modify i fun op => { op with isCancelled := true } }.setView v
      { w.views v with operation := none }
  | none => w

def sd_setImageLoadOperation (v i : ℕ) (w : World Image) : World Image :=
  let w := w.sd_cancelImageLoadOperation v
  w.setView v { w.views v with operation := some i }

/-- `callCompletionBlockForOperation`, with the block of `sd_internalSetImageWithURL`: no image, no change. -/
def callCompletionBlock (op : Operation Image) (image : Option Image) (w : World Image) : World Image :=
  if op.isCancelled then w
  else
    match image with
    | some image => w.setView op.view { w.views op.view with image := some image }
    | none => w

/-- `loadImageWithURL`. An image in memory is there before the call returns. -/
def loadImage (v : ℕ) (url : URL) (w : World Image) : World Image :=
  if url = "" ∨ url ∈ w.failedURLs then
    let op := ⟨v, url, false, .finished none⟩
    { w with operations := w.operations ++ [op] }.callCompletionBlock op none
  else
    match w.memCache url with
    | some image =>
      let op := ⟨v, url, false, .finished (some image)⟩
      { w with operations := w.operations ++ [op] }.callCompletionBlock op (some image)
    | none => { w with operations := w.operations ++ [⟨v, url, false, .querying⟩] }

/-- `sd_setImageWithURL`, with no options: the placeholder is no image. -/
def sd_setImage (v : ℕ) (url : Option URL) (w : World Image) : World Image :=
  let w := w.sd_cancelImageLoadOperation v
  let w := w.setView v { w.views v with sd_imageURL := url, image := none }
  match url with
  | some url => (w.loadImage v url).sd_setImageLoadOperation v w.operations.length
  | none => w

/-- An operation calls its completion and leaves `runningOperations`. -/
def finish (i : ℕ) (op : Operation Image) (image : Option Image) (w : World Image) : World Image :=
  (w.setStage i (.finished image)).callCompletionBlock op image

/-- `queryDiskBlock` is called. -/
def queryDisk (i : ℕ) (op : Operation Image) (w : World Image) : World Image :=
  if op.isCancelled then w.setStage i (.finished none) else w.setStage i .reading

def diskQueried (i : ℕ) (op : Operation Image) (found : Option Image) (w : World Image) : World Image :=
  (w.storeImage op.url found).setStage i (.queried found)

/-- The `doneBlock` of the cache query. -/
def queryDone (i : ℕ) (op : Operation Image) (found : Option Image) (w : World Image) : World Image :=
  if op.isCancelled then w.setStage i (.finished none)
  else if found.isNone then w.setStage i .downloading
  else w.finish i op found

/-- The completion of the download. -/
def downloaded (i : ℕ) (op : Operation Image) (result : Except NSError (Option Image)) (w : World Image) :
    World Image :=
  if op.isCancelled then w.setStage i (.finished none)
  else
    match result with
    | .error error =>
      let w := w.finish i op none
      if error.shouldBlockFailedURL then { w with failedURLs := op.url :: w.failedURLs } else w
    | .ok image => (w.storeImage op.url image).finish i op image

end World

inductive Event (Image : Type)
  | sd_setImage (v : ℕ) (url : Option URL)
  | queryDisk (i : ℕ)
  | diskQueried (i : ℕ) (found : Option Image)
  | queryDone (i : ℕ)
  | downloaded (i : ℕ) (result : Except NSError (Option Image))
  /-- The memory cache drops an image. -/
  | evicted (url : URL)

def step (w : World Image) : Event Image → Option (World Image)
  | .sd_setImage v url => some (w.sd_setImage v url)
  | .queryDisk i => do
    let op ← w.operations[i]?
    match op.stage with
    | .querying => some (w.queryDisk i op)
    | _ => none
  | .diskQueried i found => do
    let op ← w.operations[i]?
    match op.stage with
    | .reading => some (w.diskQueried i op found)
    | _ => none
  | .queryDone i => do
    let op ← w.operations[i]?
    match op.stage with
    | .queried found => some (w.queryDone i op found)
    | _ => none
  | .downloaded i result => do
    let op ← w.operations[i]?
    match op.stage with
    | .downloading => some (w.downloaded i op result)
    | _ => none
  | .evicted url => some { w with memCache := Function.update w.memCache url none }

/-! ### What a view shows -/

/-- What the completion of an operation was called with. -/
def Stage.answer : Stage Image → Option Image
  | .finished answer => answer
  | _ => none

/-- Between two events a view with a URL has the operation of its last load and shows what that was answered
with; every other operation is cancelled. -/
structure World.Consistent (w : World Image) : Prop where
  current : ∀ v url, (w.views v).sd_imageURL = some url → ∃ i op, (w.views v).operation = some i ∧
    w.operations[i]? = some op ∧ op.view = v ∧ op.url = url ∧ op.isCancelled = false ∧
    (w.views v).image = op.stage.answer
  idle : ∀ v, (w.views v).sd_imageURL = none → (w.views v).operation = none
  live : CallTable.All (fun i op => op.isCancelled = false → (w.views op.view).operation = some i) w.operations

namespace World
variable {w : World Image} {v i : ℕ} {op : Operation Image}

theorem setView_views (view : ImageView Image) (u : ℕ) :
    (w.setView v view).views u = if u = v then view else w.views u := by
  simp only [setView, Function.update_apply]

@[simp] theorem setStage_views (stage : Stage Image) : (w.setStage i stage).views = w.views := rfl

/-- The current operation of a view is the one that is not cancelled. -/
theorem Consistent.current_of_live (h : w.Consistent) (hop : w.operations[i]? = some op)
    (hlive : op.isCancelled = false) : (w.views op.view).operation = some i ∧
      (w.views op.view).sd_imageURL = some op.url ∧ (w.views op.view).image = op.stage.answer := by
  have hi : (w.views op.view).operation = some i := h.live i op hop hlive
  cases hurl : (w.views op.view).sd_imageURL with
  | none =>
    rw [h.idle _ hurl] at hi
    cases hi
  | some url =>
    obtain ⟨j, op', hj, hop', _, hurl', _, himage⟩ := h.current _ url hurl
    rw [hi, Option.some.injEq] at hj
    subst hj
    rw [hop, Option.some.injEq] at hop'
    subst hop'
    exact ⟨hi, by rw [hurl'], himage⟩

/-- An operation moves on: its view, unless it is cancelled, shows the answer. -/
theorem Consistent.advance (h : w.Consistent) (hop : w.operations[i]? = some op) (stage : Stage Image)
    {w' : World Image} (hoperations : w'.operations = (w.setStage i stage).operations)
    (hviews : ∀ u, w'.views u = if op.isCancelled = false ∧ u = op.view then
      { w.views u with image := stage.answer } else w.views u) : w'.Consistent := by
  have hURL : ∀ u, (w'.views u).sd_imageURL = (w.views u).sd_imageURL := by
    intro u
    rw [hviews]
    split <;> rfl
  have hoperation : ∀ u, (w'.views u).operation = (w.views u).operation := by
    intro u
    rw [hviews]
    split <;> rfl
  refine ⟨fun v url hv => ?_, fun v hv => ?_, ?_⟩
  · rw [hURL] at hv
    obtain ⟨j, op', hj, hop', hview, hurl, hlive, himage⟩ := h.current v url hv
    by_cases hji : j = i
    · subst hji
      rw [hop, Option.some.injEq] at hop'
      subst hop'
      refine ⟨j, { op with stage := stage }, by rw [hoperation, hj], ?_, hview, hurl, hlive, ?_⟩
      · rw [hoperations]
        exact CallTable.getElem?_modify_eq_some.mpr (.inr ⟨rfl, op, hop, rfl⟩)
      · rw [hviews, if_pos ⟨hlive, hview.symm⟩]
    · refine ⟨j, op', by rw [hoperation, hj], ?_, hview, hurl, hlive, ?_⟩
      · rw [hoperations]
        exact CallTable.getElem?_modify_eq_some.mpr (.inl ⟨hji, hop'⟩)
      · rw [hviews, if_neg, himage]
        rintro ⟨hlive', hv'⟩
        have hi := h.live i op hop hlive'
        rw [← hv', hj, Option.some.injEq] at hi
        exact hji hi
  · rw [hoperation, h.idle v (by rw [← hURL, hv])]
  · rw [hoperations]
    have hall : CallTable.All (fun i op => op.isCancelled = false → (w'.views op.view).operation = some i)
        w.operations := h.live.mono fun j op' hop' hlive => by rw [hoperation, hop' hlive]
    exact hall.modify fun op' _ hop' => hop'

theorem callCompletionBlock_views (image : Option Image) (u : ℕ) :
    (w.callCompletionBlock op image).views u =
      if op.isCancelled = false ∧ u = op.view ∧ image.isSome then { w.views u with image := image }
      else w.views u := by
  unfold callCompletionBlock
  cases hc : op.isCancelled with
  | true => simp
  | false =>
    cases image with
    | none => simp
    | some image =>
      simp only [Bool.false_eq_true, if_false, setView_views, Option.isSome_some, and_true, true_and]
      split
      · rename_i hu
        rw [hu]
      · rfl

@[simp] theorem callCompletionBlock_operations (image : Option Image) :
    (w.callCompletionBlock op image).operations = w.operations := by
  unfold callCompletionBlock
  split
  · rfl
  · cases image <;> rfl

@[simp] theorem storeImage_views (url : URL) (image : Option Image) :
    (w.storeImage url image).views = w.views := by
  cases image <;> rfl

@[simp] theorem storeImage_operations (url : URL) (image : Option Image) :
    (w.storeImage url image).operations = w.operations := by
  cases image <;> rfl

/-- An operation that moves on without an answer leaves its view alone. -/
theorem Consistent.advance_silent (h : w.Consistent) (hop : w.operations[i]? = some op)
    (hpending : op.stage.answer = none) (stage : Stage Image) (hstage : stage.answer = none) {w' : World Image}
    (hoperations : w'.operations = (w.setStage i stage).operations) (hviews : w'.views = w.views) :
    w'.Consistent := by
  refine h.advance hop stage hoperations fun u => ?_
  rw [hviews]
  split
  · rename_i hlive
    obtain ⟨hlive, rfl⟩ := hlive
    rw [hstage, ← hpending, ← (h.current_of_live hop hlive).2.2]
  · rfl

theorem Consistent.finish (h : w.Consistent) (hop : w.operations[i]? = some op)
    (hpending : op.stage.answer = none) (image : Option Image) {w₀ : World Image} (hviews : w₀.views = w.views)
    (hoperations : w₀.operations = w.operations) : (w₀.finish i op image).Consistent := by
  refine h.advance hop (.finished image) ?_ fun u => ?_
  · simp only [World.finish, callCompletionBlock_operations, setStage, hoperations]
  · simp only [World.finish, callCompletionBlock_views, setStage_views, hviews, Stage.answer]
    by_cases hlive : op.isCancelled = false ∧ u = op.view
    · rw [if_pos hlive]
      obtain ⟨hlive, rfl⟩ := hlive
      cases image with
      | some image => simp [hlive]
      | none => simp [← hpending, ← (h.current_of_live hop hlive).2.2]
    · rw [if_neg hlive, if_neg fun h' => hlive ⟨h'.1, h'.2.1⟩]

theorem Consistent.queryDisk (h : w.Consistent) (hop : w.operations[i]? = some op)
    (hstage : op.stage = .querying) : (w.queryDisk i op).Consistent := by
  have hpending : op.stage.answer = none := by rw [hstage]; rfl
  unfold World.queryDisk
  split
  · exact h.advance_silent hop hpending (.finished none) rfl rfl rfl
  · exact h.advance_silent hop hpending .reading rfl rfl rfl

theorem Consistent.diskQueried (h : w.Consistent) (hop : w.operations[i]? = some op) (hstage : op.stage = .reading)
    (found : Option Image) : (w.diskQueried i op found).Consistent := by
  have hpending : op.stage.answer = none := by rw [hstage]; rfl
  refine h.advance_silent hop hpending (.queried found) rfl ?_ ?_
  · simp only [World.diskQueried, setStage, storeImage_operations]
  · simp only [World.diskQueried, setStage_views, storeImage_views]

theorem Consistent.queryDone (h : w.Consistent) (hop : w.operations[i]? = some op) {found : Option Image}
    (hstage : op.stage = .queried found) : (w.queryDone i op found).Consistent := by
  have hpending : op.stage.answer = none := by rw [hstage]; rfl
  unfold World.queryDone
  split
  · exact h.advance_silent hop hpending (.finished none) rfl rfl rfl
  split
  · exact h.advance_silent hop hpending .downloading rfl rfl rfl
  · exact h.finish hop hpending found rfl rfl

theorem Consistent.downloaded (h : w.Consistent) (hop : w.operations[i]? = some op)
    (hstage : op.stage = .downloading) (result : Except NSError (Option Image)) :
    (w.downloaded i op result).Consistent := by
  have hpending : op.stage.answer = none := by rw [hstage]; rfl
  unfold World.downloaded
  split
  · exact h.advance_silent hop hpending (.finished none) rfl rfl rfl
  cases result with
  | ok image => exact h.finish hop hpending image (by simp) (by simp)
  | error error =>
    have hfinish : (w.finish i op none).Consistent := h.finish hop hpending none rfl rfl
    dsimp only
    split
    · exact ⟨hfinish.current, hfinish.idle, hfinish.live⟩
    · exact hfinish

/-! ### A new load -/

/-- The operations after the cancellation of a view's current one. -/
def cancelledOperations (v : ℕ) (w : World Image) : List (Operation Image) :=
  match (w.views v).operation with
  | some i => w.operations.modify i fun op => { op with isCancelled := true }
  | none => w.operations

/-- What `loadImageWithURL` finds out before it returns. -/
def firstStage (url : URL) (w : World Image) : Stage Image :=
  if url = "" ∨ url ∈ w.failedURLs then .finished none
  else
    match w.memCache url with
    | some image => .finished (some image)
    | none => .querying

theorem cancelledOperations_length : (w.cancelledOperations v).length = w.operations.length := by
  unfold cancelledOperations
  split
  · exact List.length_modify _ _ _
  · rfl

theorem cancelledOperations_of_idle (h : (w.views v).operation = none) :
    w.cancelledOperations v = w.operations := by
  unfold cancelledOperations
  rw [h]

theorem sd_cancelImageLoadOperation_eq : w.sd_cancelImageLoadOperation v =
    { w with
      views := Function.update w.views v { w.views v with operation := none }
      operations := w.cancelledOperations v } := by
  unfold sd_cancelImageLoadOperation cancelledOperations
  cases hop : (w.views v).operation with
  | some i => rfl
  | none =>
    have hsame : Function.update w.views v { w.views v with operation := none } = w.views := by
      rw [← hop]
      exact Function.update_eq_self v w.views
    dsimp only
    rw [hsame]

theorem loadImage_eq (url : URL) : w.loadImage v url =
    { w with
      views := Function.update w.views v
        { w.views v with image := ((w.firstStage url).answer).or (w.views v).image }
      operations := w.operations ++ [⟨v, url, false, w.firstStage url⟩] } := by
  unfold loadImage firstStage
  split
  · simp [callCompletionBlock, Stage.answer]
  · cases w.memCache url with
    | some image => simp [callCompletionBlock, setView, Stage.answer]
    | none => simp [Stage.answer]

/-- A load, done in one. -/
theorem sd_setImage_eq (url : Option URL) : w.sd_setImage v url =
    { w with
      views := Function.update w.views v
        ⟨url.bind fun url => (w.firstStage url).answer, url, url.map fun _ => w.operations.length⟩
      operations :=
        w.cancelledOperations v ++ (url.map fun url => ⟨v, url, false, w.firstStage url⟩).toList } := by
  cases url with
  | none => simp [sd_setImage, sd_cancelImageLoadOperation_eq, setView]
  | some url =>
    simp only [sd_setImage, sd_setImageLoadOperation, sd_cancelImageLoadOperation_eq, setView, loadImage_eq,
      Function.update_self, Function.update_idem, Option.or_none, cancelledOperations_length,
      cancelledOperations_of_idle]
    rfl

theorem mem_cancelledOperations {j : ℕ} {op' : Operation Image}
    (h : (w.cancelledOperations v)[j]? = some op') : ∃ op, w.operations[j]? = some op ∧
      (op' = op ∧ (w.views v).operation ≠ some j ∨ op' = { op with isCancelled := true }) := by
  unfold cancelledOperations at h
  cases hoperation : (w.views v).operation with
  | none =>
    rw [hoperation] at h
    exact ⟨op', h, .inl ⟨rfl, by simp⟩⟩
  | some i =>
    rw [hoperation] at h
    rcases CallTable.getElem?_modify_eq_some.mp h with ⟨hne, h⟩ | ⟨rfl, op, hop, rfl⟩
    · exact ⟨op', h, .inl ⟨rfl, fun heq => hne (Option.some.inj heq).symm⟩⟩
    · exact ⟨op, hop, .inr rfl⟩

/-- The other views keep their operations. -/
theorem Consistent.getElem?_cancelledOperations (h : w.Consistent) (hop : w.operations[i]? = some op)
    (hview : op.view ≠ v) : (w.cancelledOperations v)[i]? = some op := by
  unfold cancelledOperations
  cases hoperation : (w.views v).operation with
  | none => exact hop
  | some j =>
    refine CallTable.getElem?_modify_eq_some.mpr (.inl ⟨?_, hop⟩)
    rintro rfl
    cases hurl : (w.views v).sd_imageURL with
    | none =>
      rw [h.idle v hurl] at hoperation
      cases hoperation
    | some url =>
      obtain ⟨j, op', hj, hop', hview', _⟩ := h.current v url hurl
      rw [hoperation, Option.some.injEq] at hj
      subst hj
      rw [hop, Option.some.injEq] at hop'
      exact hview (hop' ▸ hview')

theorem Consistent.sd_setImage (h : w.Consistent) (url : Option URL) : (w.sd_setImage v url).Consistent := by
  rw [sd_setImage_eq]
  refine ⟨fun u url' hu => ?_, fun u hu => ?_, fun j op hop hlive => ?_⟩
  · dsimp only at hu ⊢
    rw [Function.update_apply] at hu ⊢
    by_cases huv : u = v
    · subst huv
      rw [if_pos rfl] at hu ⊢
      dsimp only at hu
      subst hu
      exact ⟨w.operations.length, ⟨u, url', false, w.firstStage url'⟩, rfl,
        by simp [← cancelledOperations_length (w := w) (v := u)], rfl, rfl, rfl, rfl⟩
    · rw [if_neg huv] at hu ⊢
      obtain ⟨j, op, hj, hop, hview, hurl, hlive, himage⟩ := h.current u url' hu
      exact ⟨j, op, hj, by
        rw [List.getElem?_append_left]
        · exact h.getElem?_cancelledOperations hop (hview ▸ huv)
        · rw [cancelledOperations_length]
          exact (List.getElem?_eq_some_iff.mp hop).1, hview, hurl, hlive, himage⟩
  · dsimp only at hu ⊢
    rw [Function.update_apply] at hu ⊢
    by_cases huv : u = v
    · rw [if_pos huv] at hu ⊢
      dsimp only at hu ⊢
      rw [hu]
      rfl
    · rw [if_neg huv] at hu ⊢
      exact h.idle u hu
  · have hnew : ∀ op', (w.cancelledOperations v)[j]? = some op' → op'.isCancelled = false →
        op'.view ≠ v ∧ (w.views op'.view).operation = some j := by
      intro op' hop' hlive'
      obtain ⟨op₀, hop₀, ⟨rfl, hother⟩ | rfl⟩ := mem_cancelledOperations hop'
      · have hj := h.live j op' hop₀ hlive'
        exact ⟨fun hv => hother (hv ▸ hj), hj⟩
      · cases hlive'
    dsimp only at hop ⊢
    cases url with
    | none =>
      rw [Option.map_none, Option.toList_none, List.append_nil] at hop
      obtain ⟨hne, hj⟩ := hnew op hop hlive
      rw [Function.update_of_ne hne, hj]
    | some url =>
      rw [Option.map_some, Option.toList_some] at hop
      rcases CallTable.getElem?_concat_eq_some.mp hop with hop | ⟨rfl, rfl⟩
      · obtain ⟨hne, hj⟩ := hnew op hop hlive
        rw [Function.update_of_ne hne, hj]
      · rw [Function.update_self, cancelledOperations_length]
        rfl

/-! ### The steps -/

/-- Between two loads no view changes its URL or its operation, and one operation moves on. -/
def Moves (w : World Image) (i : ℕ) (w' : World Image) : Prop :=
  (∃ stage, w'.operations = (w.setStage i stage).operations) ∧
    ∀ u, (w'.views u).operation = (w.views u).operation ∧ (w'.views u).sd_imageURL = (w.views u).sd_imageURL

theorem moves_setStage (stage : Stage Image) : w.Moves i (w.setStage i stage) :=
  ⟨⟨stage, rfl⟩, fun _ => ⟨rfl, rfl⟩⟩

theorem moves_finish (image : Option Image) {w₀ : World Image} (hviews : w₀.views = w.views)
    (hoperations : w₀.operations = w.operations) : w.Moves i (w₀.finish i op image) := by
  refine ⟨⟨.finished image, ?_⟩, fun u => ?_⟩
  · simp only [World.finish, callCompletionBlock_operations, setStage, hoperations]
  · simp only [World.finish, callCompletionBlock_views, setStage_views, hviews]
    split <;> exact ⟨rfl, rfl⟩

end World

open World

/-- What a step does, by its event. -/
inductive Effect (w : World Image) : Event Image → World Image → Prop
  | sd_setImage (v : ℕ) (url : Option URL) : Effect w (.sd_setImage v url) (w.sd_setImage v url)
  | queryDisk {i : ℕ} {op : Operation Image} (hop : w.operations[i]? = some op) (hstage : op.stage = .querying) :
      Effect w (.queryDisk i) (w.queryDisk i op)
  | diskQueried {i : ℕ} {op : Operation Image} (found : Option Image) (hop : w.operations[i]? = some op)
      (hstage : op.stage = .reading) : Effect w (.diskQueried i found) (w.diskQueried i op found)
  | queryDone {i : ℕ} {op : Operation Image} {found : Option Image} (hop : w.operations[i]? = some op)
      (hstage : op.stage = .queried found) : Effect w (.queryDone i) (w.queryDone i op found)
  | downloaded {i : ℕ} {op : Operation Image} (result : Except NSError (Option Image))
      (hop : w.operations[i]? = some op) (hstage : op.stage = .downloading) :
      Effect w (.downloaded i result) (w.downloaded i op result)
  | evicted (url : URL) : Effect w (.evicted url) { w with memCache := Function.update w.memCache url none }

section
variable {w w' : World Image} {e : Event Image} {v i : ℕ} {op : Operation Image}

theorem step_effect (h : step w e = some w') : Effect w e w' := by
  cases e with
  | sd_setImage v url =>
    cases h
    exact .sd_setImage v url
  | evicted url =>
    cases h
    exact .evicted url
  | queryDisk i =>
    obtain ⟨op, hop, h⟩ := Option.bind_eq_some_iff.mp h
    split at h
    · rename_i hstage
      cases h
      exact .queryDisk hop hstage
    · cases h
  | diskQueried i found =>
    obtain ⟨op, hop, h⟩ := Option.bind_eq_some_iff.mp h
    split at h
    · rename_i hstage
      cases h
      exact .diskQueried found hop hstage
    · cases h
  | queryDone i =>
    obtain ⟨op, hop, h⟩ := Option.bind_eq_some_iff.mp h
    split at h
    · rename_i found hstage
      cases h
      exact .queryDone hop hstage
    · cases h
  | downloaded i result =>
    obtain ⟨op, hop, h⟩ := Option.bind_eq_some_iff.mp h
    split at h
    · rename_i hstage
      cases h
      exact .downloaded result hop hstage
    · cases h

theorem step_consistent (h : w.Consistent) (hstep : step w e = some w') : w'.Consistent := by
  cases step_effect hstep with
  | sd_setImage v url => exact h.sd_setImage url
  | queryDisk hop hstage => exact h.queryDisk hop hstage
  | diskQueried found hop hstage => exact h.diskQueried hop hstage found
  | queryDone hop hstage => exact h.queryDone hop hstage
  | downloaded result hop hstage => exact h.downloaded hop hstage result
  | evicted url => exact ⟨h.current, h.idle, h.live⟩

/-- Nothing that the views have asked for changes, nor an operation that is over. -/
def Keeps (w w' : World Image) : Prop :=
  (∀ u, (w'.views u).operation = (w.views u).operation ∧ (w'.views u).sd_imageURL = (w.views u).sd_imageURL) ∧
    CallTable.All (fun j op => ∀ answer, op.stage = .finished answer → w'.operations[j]? = some op) w.operations

theorem keeps_of_moves (hop : w.operations[i]? = some op) (hpending : ∀ answer, op.stage ≠ .finished answer)
    (h : w.Moves i w') : Keeps w w' := by
  obtain ⟨⟨stage, hoperations⟩, hviews⟩ := h
  refine ⟨hviews, fun j op' hop' answer hover => ?_⟩
  rw [hoperations]
  refine CallTable.getElem?_modify_eq_some.mpr (.inl ⟨?_, hop'⟩)
  rintro rfl
  rw [hop, Option.some.injEq] at hop'
  exact hpending answer (hop' ▸ hover)

theorem step_keeps (hstep : step w e = some w') (hload : ∀ v url, e ≠ .sd_setImage v url) : Keeps w w' := by
  cases step_effect hstep with
  | sd_setImage v url => exact absurd rfl (hload v url)
  | queryDisk hop hstage =>
    refine keeps_of_moves hop (by simp [hstage]) ?_
    unfold World.queryDisk
    split <;> exact moves_setStage _
  | diskQueried found hop hstage =>
    refine keeps_of_moves hop (by simp [hstage]) ⟨⟨.queried found, ?_⟩, fun u => ?_⟩
    · simp only [World.diskQueried, setStage, storeImage_operations]
    · simp only [World.diskQueried, setStage_views, storeImage_views, and_self]
  | queryDone hop hstage =>
    refine keeps_of_moves hop (by simp [hstage]) ?_
    unfold World.queryDone
    split
    · exact moves_setStage _
    split
    · exact moves_setStage _
    · exact moves_finish _ rfl rfl
  | downloaded result hop hstage =>
    refine keeps_of_moves hop (by simp [hstage]) ?_
    unfold World.downloaded
    split
    · exact moves_setStage _
    cases result with
    | ok image => exact moves_finish _ (by simp) (by simp)
    | error error =>
      dsimp only
      split
      · exact moves_finish _ rfl rfl
      · exact moves_finish _ rfl rfl
  | evicted url => exact ⟨fun u => ⟨rfl, rfl⟩, fun j op hop answer _ => hop⟩

/-- A view that has not loaded anything keeps its image. -/
theorem step_image_of_unloaded (h : w.Consistent) (hstep : step w e = some w')
    (hload : ∀ v url, e ≠ .sd_setImage v url) (hurl : (w.views v).sd_imageURL = none) :
    (w'.views v).image = (w.views v).image := by
  have hfinish : ∀ {i : ℕ} {op : Operation Image} (image : Option Image) {w₀ : World Image},
      w.operations[i]? = some op → w₀.views = w.views →
      ((w₀.finish i op image).views v).image = (w.views v).image := by
    intro i op image w₀ hop hviews
    simp only [World.finish, callCompletionBlock_views, setStage_views, hviews]
    split
    · rename_i hlive
      obtain ⟨hlive, rfl, _⟩ := hlive
      rw [(h.current_of_live hop hlive).2.1] at hurl
      cases hurl
    · rfl
  cases step_effect hstep with
  | sd_setImage u url => exact absurd rfl (hload u url)
  | evicted => rfl
  | queryDisk =>
    unfold World.queryDisk
    split <;> rfl
  | diskQueried =>
    simp only [World.diskQueried, setStage_views, storeImage_views]
  | queryDone hop =>
    unfold World.queryDone
    split
    · rfl
    split
    · rfl
    · exact hfinish _ hop rfl
  | downloaded result hop =>
    unfold World.downloaded
    split
    · rfl
    cases result with
    | ok image => exact hfinish _ hop (by simp)
    | error error =>
      dsimp only
      split
      · exact hfinish _ hop rfl
      · exact hfinish _ hop rfl

/-- The URL a load gives to the view. -/
def urlGiven (v : ℕ) : Event Image → Option (Option URL)
  | .sd_setImage u url => if u = v then some url else none
  | _ => none

theorem step_sd_imageURL (hstep : step w e = some w') (v : ℕ) :
    (w'.views v).sd_imageURL = (urlGiven v e).getD (w.views v).sd_imageURL := by
  by_cases hload : ∃ u url, e = .sd_setImage u url
  · obtain ⟨u, url, rfl⟩ := hload
    cases hstep
    rw [sd_setImage_eq, urlGiven]
    dsimp only
    rw [Function.update_apply]
    by_cases huv : u = v
    · rw [if_pos huv.symm, if_pos huv, Option.getD_some]
    · rw [if_neg (Ne.symm huv), if_neg huv, Option.getD_none]
  · have hkeeps := step_keeps hstep fun u url h => hload ⟨u, url, h⟩
    rw [(hkeeps.1 v).2]
    cases e with
    | sd_setImage u url => exact absurd ⟨u, url, rfl⟩ hload
    | queryDisk | diskQueried | queryDone | downloaded | evicted => rfl

/-! ### Whose picture -/

/-- The picture an operation has got hold of. -/
def Stage.picture : Stage Image → Option Image
  | .queried found => found
  | .finished answer => answer
  | _ => none

/-- What the disk and the network deliver is a picture of the URL it was asked for. -/
def Delivers (Of : URL → Image → Prop) (w : World Image) : Event Image → Prop
  | .diskQueried i (some image) | .downloaded i (.ok (some image)) =>
    ∀ op, w.operations[i]? = some op → Of op.url image
  | _ => True

/-- So is what the manager holds. -/
structure World.Pictures (Of : URL → Image → Prop) (w : World Image) : Prop where
  memory : ∀ url image, w.memCache url = some image → Of url image
  operations : CallTable.All (fun _ op => ∀ image, op.stage.picture = some image → Of op.url image) w.operations

variable {Of : URL → Image → Prop}

theorem World.Pictures.setStage (h : w.Pictures Of) (hop : w.operations[i]? = some op) {stage : Stage Image}
    (hstage : ∀ image, stage.picture = some image → Of op.url image) : (w.setStage i stage).Pictures Of := by
  refine ⟨h.memory, h.operations.modify fun op' hop' _ image himage => ?_⟩
  rw [hop, Option.some.injEq] at hop'
  exact hop' ▸ hstage image himage

theorem World.Pictures.storeImage (h : w.Pictures Of) {url : URL} {image : Option Image}
    (himage : ∀ image', image = some image' → Of url image') : (w.storeImage url image).Pictures Of := by
  cases image with
  | none => exact h
  | some image =>
    refine ⟨fun url' image' hstored => ?_, h.operations⟩
    simp only [World.storeImage, Function.update_apply] at hstored
    split at hstored
    · rename_i heq
      exact heq ▸ himage image' hstored
    · exact h.memory url' image' hstored

theorem callCompletionBlock_memCache (image : Option Image) :
    (w.callCompletionBlock op image).memCache = w.memCache := by
  unfold callCompletionBlock
  split
  · rfl
  · cases image <;> rfl

theorem World.Pictures.finish (h : w.Pictures Of) (hop : w.operations[i]? = some op) (image : Option Image)
    (himage : ∀ image', image = some image' → Of op.url image') : (w.finish i op image).Pictures Of := by
  have hset : (w.setStage i (.finished image)).Pictures Of := h.setStage hop himage
  refine ⟨fun url image' hstored => ?_, ?_⟩
  · rw [World.finish, callCompletionBlock_memCache] at hstored
    exact hset.memory url image' hstored
  · rw [World.finish, callCompletionBlock_operations]
    exact hset.operations

theorem World.firstStage_picture {url : URL} {image : Option Image} :
    (w.firstStage url).picture = image → image = none ∨ w.memCache url = image := by
  unfold World.firstStage
  split
  · rintro rfl
    exact .inl rfl
  · cases w.memCache url with
    | none =>
      rintro rfl
      exact .inl rfl
    | some image' =>
      rintro rfl
      exact .inr rfl

theorem World.Pictures.sd_setImage (h : w.Pictures Of) (url : Option URL) : (w.sd_setImage v url).Pictures Of := by
  rw [sd_setImage_eq]
  refine ⟨h.memory, ?_⟩
  have hold : CallTable.All (fun _ op => ∀ image, op.stage.picture = some image → Of op.url image)
      (w.cancelledOperations v) := by
    intro j op hop
    obtain ⟨op₀, hop₀, ⟨rfl, _⟩ | rfl⟩ := mem_cancelledOperations hop
    · exact h.operations j op hop₀
    · exact h.operations j op₀ hop₀
  cases url with
  | none => simpa using hold
  | some url =>
    refine hold.concat fun image himage => ?_
    rcases firstStage_picture himage with hnone | hmemory
    · cases hnone
    · exact h.memory url image hmemory

theorem step_pictures (h : w.Pictures Of) (hstep : step w e = some w') (hdelivers : Delivers Of w e) :
    w'.Pictures Of := by
  cases step_effect hstep with
  | sd_setImage v url => exact h.sd_setImage url
  | queryDisk hop hstage =>
    unfold World.queryDisk
    split
    · exact h.setStage hop (by simp [Stage.picture])
    · exact h.setStage hop (by simp [Stage.picture])
  | @diskQueried i op found hop hstage =>
    have hfound : ∀ image, found = some image → Of op.url image := by
      rintro image rfl
      exact hdelivers _ hop
    refine (h.storeImage hfound).setStage ?_ hfound
    rw [storeImage_operations, hop]
  | @queryDone i op found hop hstage =>
    have hfound : ∀ image, found = some image → Of op.url image := by
      intro image himage
      refine h.operations i op hop image ?_
      rw [hstage, ← himage]
      rfl
    unfold World.queryDone
    split
    · exact h.setStage hop (by simp [Stage.picture])
    split
    · exact h.setStage hop (by simp [Stage.picture])
    · exact h.finish hop found hfound
  | @downloaded i op result hop hstage =>
    unfold World.downloaded
    split
    · exact h.setStage hop (by simp [Stage.picture])
    cases result with
    | ok image =>
      have himage : ∀ image', image = some image' → Of op.url image' := by
        rintro image' rfl
        exact hdelivers _ hop
      refine (h.storeImage himage).finish ?_ image himage
      rw [storeImage_operations, hop]
    | error error =>
      have hfinish := h.finish hop none (by simp)
      dsimp only
      split
      · exact ⟨hfinish.memory, hfinish.operations⟩
      · exact hfinish
  | evicted url =>
    refine ⟨fun url' image hstored => ?_, h.operations⟩
    dsimp only at hstored
    rw [Function.update_apply] at hstored
    split at hstored
    · cases hstored
    · exact h.memory url' image hstored

/-! ### Texts that need not be URLs -/

/-- The load of a text, if `URL(string:)` makes a URL of it. -/
def World.showImage (accepts : String → Bool) (v : ℕ) (text : String) (w : World Image) : World Image :=
  if accepts text then w.sd_setImage v (some text) else w

variable {accepts : String → Bool}

theorem World.Consistent.showImage (h : w.Consistent) (text : String) : (w.showImage accepts v text).Consistent := by
  unfold World.showImage
  split
  · exact h.sd_setImage _
  · exact h

theorem World.Pictures.showImage (h : w.Pictures Of) (text : String) : (w.showImage accepts v text).Pictures Of := by
  unfold World.showImage
  split
  · exact h.sd_setImage _
  · exact h

theorem World.showImage_sd_imageURL (text : String) (u : ℕ) : ((w.showImage accepts v text).views u).sd_imageURL =
    if u = v ∧ accepts text = true then some text else (w.views u).sd_imageURL := by
  unfold World.showImage
  by_cases haccepts : accepts text = true
  · rw [if_pos haccepts, sd_setImage_eq]
    dsimp only
    rw [Function.update_apply]
    by_cases hu : u = v
    · rw [if_pos hu, if_pos ⟨hu, haccepts⟩]
    · rw [if_neg hu, if_neg fun h => hu h.1]
  · rw [if_neg haccepts, if_neg fun h => haccepts h.2]

theorem World.showImage_image_of_unloaded (text : String) {u : ℕ}
    (hurl : ((w.showImage accepts v text).views u).sd_imageURL = none) :
    ((w.showImage accepts v text).views u).image = (w.views u).image := by
  unfold World.showImage at hurl ⊢
  split at hurl
  · rename_i haccepts
    rw [if_pos haccepts]
    rw [sd_setImage_eq] at hurl ⊢
    dsimp only at hurl ⊢
    by_cases hu : u = v
    · subst hu
      rw [Function.update_self] at hurl
      cases hurl
    · rw [Function.update_of_ne hu]
  · rename_i haccepts
    rw [if_neg haccepts]

/-- Before the first load: the views may show an image of the bundle. -/
structure World.Start (Of : URL → Image → Prop) (w : World Image) : Prop where
  views : ∀ v, (w.views v).sd_imageURL = none ∧ (w.views v).operation = none
  operations : w.operations = []
  memory : ∀ url image, w.memCache url = some image → Of url image

variable {start : World Image} {es : List (Event Image)}

theorem run_consistent (hstart : start.Start Of) : run step start es = some w → w.Consistent := by
  refine EventRun.run_invariant (fun s e s' hs hstep => step_consistent hs hstep) ⟨?_, ?_, ?_⟩
  · intro v url hv
    rw [(hstart.views v).1] at hv
    cases hv
  · exact fun v _ => (hstart.views v).2
  · rw [hstart.operations]
    exact CallTable.all_nil

theorem run_sd_imageURL (hstart : start.Start Of) (v : ℕ) :
    run step start es = some w → (w.views v).sd_imageURL = (lastOf (urlGiven v) es).join := by
  refine EventRun.run_induction (P := fun es (w : World Image) =>
    (w.views v).sd_imageURL = (lastOf (urlGiven v) es).join) (hstart.views v).1 fun es s e s' _ hs hstep => ?_
  rw [step_sd_imageURL hstep v, hs, EventRun.lastOf_concat]
  cases urlGiven v e <;> rfl

theorem run_pictures (hstart : start.Start Of) (hrun : run step start es = some w)
    (hdelivers : Guarded step (fun _ w e => Delivers Of w e) start es) : w.Pictures Of := by
  refine EventRun.guarded_induction (P := fun _ w => w.Pictures Of) ⟨hstart.memory, ?_⟩
    (fun _ s e s' _ hC hs hstep => step_pictures hs hstep hC) hrun hdelivers
  rw [hstart.operations]
  exact CallTable.all_nil

theorem World.Pictures.of_image (h : w.Pictures Of) (hconsistent : w.Consistent) {url : URL} {image : Image}
    (hurl : (w.views v).sd_imageURL = some url) (himage : (w.views v).image = some image) : Of url image := by
  obtain ⟨i, op, _, hop, _, rfl, _, hanswer⟩ := hconsistent.current v url hurl
  rw [himage] at hanswer
  refine h.operations i op hop image ?_
  cases hstage : op.stage with
  | finished answer =>
    rw [hstage] at hanswer
    exact hanswer.symm
  | querying | reading | queried | downloading =>
    rw [hstage] at hanswer
    cases hanswer

/-- **Whose picture a view shows.** Whatever loads of however many views are under way, and in whatever order
their callbacks come: a view whose last load was of a URL shows exactly what that load has been answered with so
far, and that is a picture of that URL. -/
theorem shows_last_load (hstart : start.Start Of) (hrun : run step start es = some w)
    (hdelivers : Guarded step (fun _ w e => Delivers Of w e) start es) {url : URL}
    (hlast : lastOf (urlGiven v) es = some (some url)) :
    ∃ (i : ℕ) (op : Operation Image), w.operations[i]? = some op ∧ op.view = v ∧ op.url = url ∧
      op.isCancelled = false ∧ (w.views v).image = op.stage.answer ∧
      (∀ image, (w.views v).image = some image → Of url image) ∧
      ∀ (j : ℕ) (op' : Operation Image), w.operations[j]? = some op' → op'.view = v → j ≠ i →
        op'.isCancelled = true := by
  have hconsistent : w.Consistent := run_consistent hstart hrun
  have hurl : (w.views v).sd_imageURL = some url := by rw [run_sd_imageURL hstart v hrun, hlast, Option.join_some]
  obtain ⟨i, op, hi, hop, hview, hopurl, hcurrent, himage⟩ := hconsistent.current v url hurl
  refine ⟨i, op, hop, hview, hopurl, hcurrent, himage, fun image himage' => ?_, fun j op' hop' hview' hne => ?_⟩
  · exact (run_pictures hstart hrun hdelivers).of_image hconsistent hurl himage'
  · by_contra hlive
    have hj := hconsistent.live j op' hop' (by simpa using hlive)
    rw [hview', hi, Option.some.injEq] at hj
    exact hne hj.symm

/-- Nothing loaded, nothing cached. -/
def World.blank : World String := ⟨fun _ => ⟨none, none, none⟩, [], fun _ => none, []⟩

/-- The picture of the first load comes after the second has begun. -/
def latePicture : List (Event String) :=
  [.sd_setImage 0 (some "a"), .queryDisk 0, .diskQueried 0 none, .queryDone 0, .sd_setImage 0 (some "b"),
    .downloaded 0 (.ok (some "a")), .queryDisk 1, .diskQueried 1 (some "b"), .queryDone 1]

theorem shows_last_load_latePicture : ∃ w : World String, run step World.blank latePicture = some w ∧
    (w.views 0).image = some "b" ∧
    ∃ (i : ℕ) (op : Operation String), w.operations[i]? = some op ∧ op.view = 0 ∧ op.url = "b" ∧
      op.isCancelled = false ∧ (w.views 0).image = op.stage.answer ∧
      (∀ image, (w.views 0).image = some image → image = "b") ∧
      ∀ (j : ℕ) (op' : Operation String), w.operations[j]? = some op' → op'.view = 0 → j ≠ i →
        op'.isCancelled = true := by
  have hstart : World.blank.Start fun url image => image = url := ⟨fun _ => ⟨rfl, rfl⟩, rfl, by simp [World.blank]⟩
  have hdelivers : Guarded step (fun _ w e => Delivers (fun url image => image = url) w e) World.blank
      latePicture := by
    iterate 9 refine (EventRun.guarded_cons rfl).mpr ⟨?_, ?_⟩; swap
    · exact EventRun.guarded_nil
    all_goals first | trivial | (rintro op ⟨⟩; rfl)
  exact ⟨_, rfl, rfl, shows_last_load hstart rfl hdelivers rfl⟩

/-! ### A URL that failed -/

/-- The failed URLs are never taken off the list. -/
theorem step_failedURLs {url : URL} (hfailed : url ∈ w.failedURLs) (hstep : step w e = some w') :
    url ∈ w'.failedURLs := by
  have hcompletion : ∀ (op : Operation Image) (image : Option Image) (w₀ : World Image),
      (w₀.callCompletionBlock op image).failedURLs = w₀.failedURLs := by
    intro op image w₀
    unfold callCompletionBlock
    split
    · rfl
    · cases image <;> rfl
  have hstore : ∀ (url : URL) (image : Option Image), (w.storeImage url image).failedURLs = w.failedURLs :=
    fun url image => by cases image <;> rfl
  cases step_effect hstep with
  | sd_setImage v url =>
    rw [sd_setImage_eq]
    exact hfailed
  | queryDisk =>
    unfold World.queryDisk
    split <;> exact hfailed
  | @diskQueried i op found _ _ =>
    show url ∈ (w.storeImage op.url found).failedURLs
    rwa [hstore]
  | queryDone =>
    unfold World.queryDone
    split
    · exact hfailed
    split
    · exact hfailed
    · rwa [World.finish, hcompletion]
  | @downloaded i op result _ _ =>
    unfold World.downloaded
    split
    · exact hfailed
    cases result with
    | ok image =>
      dsimp only
      rw [World.finish, hcompletion]
      show url ∈ (w.storeImage op.url image).failedURLs
      rwa [hstore]
    | error error =>
      have hfinish : url ∈ (w.finish i op none).failedURLs := by rwa [World.finish, hcompletion]
      dsimp only
      split
      · exact List.mem_cons_of_mem _ hfinish
      · exact hfinish
  | evicted => exact hfailed

/-- The current operation of the view is over, without an image. -/
def World.GaveUp (v : ℕ) (w : World Image) : Prop :=
  ∃ i op, (w.views v).operation = some i ∧ w.operations[i]? = some op ∧ op.view = v ∧ op.stage = .finished none

theorem step_gaveUp (h : w.Consistent) (hgaveUp : w.GaveUp v) (hstep : step w e = some w')
    (hload : urlGiven v e = none) : w'.GaveUp v := by
  obtain ⟨i, op, hi, hop, hview, hstage⟩ := hgaveUp
  by_cases hset : ∃ u url, e = .sd_setImage u url
  · obtain ⟨u, url, rfl⟩ := hset
    have huv : u ≠ v := by
      rintro rfl
      simp [urlGiven] at hload
    cases hstep
    rw [sd_setImage_eq]
    refine ⟨i, op, ?_, ?_, hview, hstage⟩
    · dsimp only
      rw [Function.update_of_ne huv.symm, hi]
    · dsimp only
      have hkept := h.getElem?_cancelledOperations (v := u) hop (hview ▸ huv.symm)
      rw [List.getElem?_append_left (List.getElem?_eq_some_iff.mp hkept).1, hkept]
  · have hkeeps := step_keeps hstep fun u url heq => hset ⟨u, url, heq⟩
    exact ⟨i, op, by rw [(hkeeps.1 v).1, hi], hkeeps.2 i op hop none hstage, hview, hstage⟩

theorem World.Consistent.image_of_gaveUp (h : w.Consistent) (hgaveUp : w.GaveUp v) : (w.views v).image = none := by
  obtain ⟨i, op, hi, hop, _, hstage⟩ := hgaveUp
  cases hurl : (w.views v).sd_imageURL with
  | none =>
    rw [h.idle v hurl] at hi
    cases hi
  | some url =>
    obtain ⟨j, op', hj, hop', _, _, _, himage⟩ := h.current v url hurl
    rw [hi, Option.some.injEq] at hj
    subst hj
    rw [hop, Option.some.injEq] at hop'
    rw [himage, ← hop', hstage]
    rfl

theorem sd_setImage_gaveUp {url : URL} (hfailed : url ∈ w.failedURLs) : (w.sd_setImage v (some url)).GaveUp v := by
  rw [sd_setImage_eq]
  refine ⟨w.operations.length, ⟨v, url, false, .finished none⟩, by simp, ?_, rfl, rfl⟩
  simp [firstStage, hfailed, ← cancelledOperations_length (w := w) (v := v)]

theorem downloaded_failedURLs {error : NSError} (hop : w.operations[i]? = some op) (hlive : op.isCancelled = false)
    (herror : error.shouldBlockFailedURL = true) (hstep : step w (.downloaded i (.error error)) = some w') :
    op.url ∈ w'.failedURLs := by
  cases step_effect hstep with
  | downloaded _ hop' _ =>
    rw [hop, Option.some.injEq] at hop'
    subst hop'
    simp [World.downloaded, hlive, herror]

/-- **A URL that failed for good.** Once a download has failed with an error that is not one of the connection,
whatever else was under way then or has happened since, a view that loads the URL again stays blank until it
loads another. -/
theorem failed_url_stays_blank (hstart : start.Start Of) {pre mid post : List (Event Image)} {m : World Image}
    {error : NSError} (hpre : run step start pre = some m) (hop : m.operations[i]? = some op)
    (hlive : op.isCancelled = false) (herror : error.shouldBlockFailedURL = true)
    (hpost : ∀ e ∈ post, urlGiven v e = none)
    (hrun : run step start (pre ++ .downloaded i (.error error) :: mid ++ .sd_setImage v (some op.url) :: post) =
      some w) : (w.views v).image = none := by
  obtain ⟨m₁, hm₁, _⟩ := EventRun.run_append_eq_some.mp hrun
  have hfailed : op.url ∈ m₁.failedURLs :=
    EventRun.run_since (P := fun _ (w : World Image) => op.url ∈ w.failedURLs) hpre
      (fun m' hstep => downloaded_failedURLs hop hlive herror hstep)
      (fun _ s x s' _ _ hs hstep => step_failedURLs hs hstep) hm₁
  have hgaveUp : w.GaveUp v :=
    EventRun.run_since (P := fun _ (w : World Image) => w.GaveUp v) hm₁
      (fun m' hstep => by
        cases hstep
        exact sd_setImage_gaveUp hfailed)
      (fun _ s x s' hs hx hgave hstep => step_gaveUp (run_consistent hstart hs) hgave hstep (hpost x hx)) hrun
  exact (run_consistent hstart hrun).image_of_gaveUp hgaveUp

/-- The file does not exist; another view asks for it again. -/
theorem failed_url_stays_blank_notFound : ∃ w : World String, run step World.blank
      ([.sd_setImage 0 (some "a"), .queryDisk 0, .diskQueried 0 none, .queryDone 0] ++
        .downloaded 0 (.error ⟨-1100⟩) :: [.evicted "a"] ++ .sd_setImage 1 (some "a") :: []) = some w ∧
    (w.views 1).image = none := by
  have hstart : World.blank.Start fun _ _ => True := ⟨fun _ => ⟨rfl, rfl⟩, rfl, by simp [World.blank]⟩
  have hpre : run step World.blank [.sd_setImage 0 (some "a"), .queryDisk 0, .diskQueried 0 none, .queryDone 0] =
      some _ := rfl
  have hop : ([⟨0, "a", false, .downloading⟩] : List (Operation String))[0]? =
      some ⟨0, "a", false, .downloading⟩ := rfl
  have hrun : run step World.blank ([.sd_setImage 0 (some "a"), .queryDisk 0, .diskQueried 0 none, .queryDone 0] ++
      .downloaded 0 (.error ⟨-1100⟩) :: [.evicted "a"] ++ .sd_setImage 1 (some "a") :: []) = some _ := rfl
  exact ⟨_, hrun, failed_url_stays_blank hstart hpre hop rfl rfl (by simp) hrun⟩

end

end CloneProjects.SDWebImage
