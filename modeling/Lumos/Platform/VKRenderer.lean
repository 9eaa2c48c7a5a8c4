import Lumos.Library.BinarySemaphores

/-!
# `VKRenderer`

A frame acquires an image of the swapchain, submits command buffers that wait for one another, and presents the image.
Who is waited for is in a row of semaphores, of which each frame uses the first ones.
-/
namespace Lumos.Platform

open BinarySemaphores

/-- What `vkAcquireNextImageKHR` returns, as far as it is asked for. -/
inductive VkResult where
  | VK_SUCCESS | VK_SUBOPTIMAL_KHR | VK_ERROR_OUT_OF_DATE_KHR | VK_FAILED
  deriving DecidableEq

/-- The semaphore is signalled where an image has been acquired. -/
def VkResult.acquired : VkResult → Bool
  | VK_SUCCESS | VK_SUBOPTIMAL_KHR => true
  | VK_ERROR_OUT_OF_DATE_KHR | VK_FAILED => false

/-- `NUM_SEMAPHORES` -/
def numSemaphores : Nat := 10

abbrev Semaphore := Fin numSemaphores

/-- The index of the current semaphore, and what has been submitted so far. -/
structure VKRenderer where
  currentSemaphoreIndex : Nat
  queue : List (Operation Semaphore)

/-- `m_ImageAvailableSemaphore[index]` -/
def imageAvailableSemaphore (index : Nat) : Option Semaphore :=
  if h : index < numSemaphores then some ⟨index, h⟩ else none

namespace VKRenderer

def create : VKRenderer := ⟨0, []⟩

/-- `Begin`. Nothing is done about an image that has not been acquired, but for `OnResize` where the swapchain is out
of date. -/
def begin (result : VkResult) (r : VKRenderer) : VKRenderer :=
  { currentSemaphoreIndex := 0
    queue := r.queue ++ if result.acquired then [.signal ⟨0, by decide⟩] else [] }

/-- `PresentInternal`, of a command buffer. It reads behind the array where there is no semaphore left to signal. -/
def presentCommandBuffer (r : VKRenderer) : Option VKRenderer := do
  let waitSemaphore ← imageAvailableSemaphore r.currentSemaphoreIndex
  let signalSemaphore ← imageAvailableSemaphore (r.currentSemaphoreIndex + 1)
  some ⟨r.currentSemaphoreIndex + 1, r.queue ++ [.wait waitSemaphore, .signal signalSemaphore]⟩

/-- `PresentInternal`, of the image. -/
def present (r : VKRenderer) : Option VKRenderer := do
  let waitSemaphore ← imageAvailableSemaphore r.currentSemaphoreIndex
  some { r with queue := r.queue ++ [.wait waitSemaphore] }

def presentCommandBuffers : Nat → VKRenderer → Option VKRenderer
  | 0, r => some r
  | n + 1, r => r.presentCommandBuffer.bind (presentCommandBuffers n)

end VKRenderer

/-- What `OnRender` asks of the renderer: `Begin` and the command buffers of the passes, if there are any passes. -/
structure RenderedFrame where
  begun : Option VkResult
  passes : Nat

/-- The rendering of a frame. There is always the command buffer of the user interface. -/
def RenderedFrame.render (f : RenderedFrame) (r : VKRenderer) : Option VKRenderer := do
  let r ←
    match f.begun with
    | some result => (r.begin result).presentCommandBuffers f.passes
    | none => some r
  let r ← r.presentCommandBuffer
  r.present

/-- An image has been acquired, and there is a semaphore for each command buffer. -/
def RenderedFrame.Fine (f : RenderedFrame) : Prop :=
  ∃ result ∈ f.begun, result.acquired = true ∧ f.passes + 1 < numSemaphores

namespace VKRenderer

/-! ## One frame -/

variable {r : VKRenderer} {i n : Nat}

theorem imageAvailableSemaphore_of_lt (h : i < numSemaphores) : imageAvailableSemaphore i = some ⟨i, h⟩ := dif_pos h

theorem imageAvailableSemaphore_of_le (h : numSemaphores ≤ i) : imageAvailableSemaphore i = none := dif_neg (by omega)

theorem presentCommandBuffer_of_lt (h : r.currentSemaphoreIndex + 1 < numSemaphores) :
    r.presentCommandBuffer = some ⟨r.currentSemaphoreIndex + 1,
      r.queue ++ [.wait ⟨r.currentSemaphoreIndex, by omega⟩, .signal ⟨r.currentSemaphoreIndex + 1, h⟩]⟩ := by
  rw [presentCommandBuffer, imageAvailableSemaphore_of_lt h, imageAvailableSemaphore_of_lt (by omega)]
  rfl

theorem presentCommandBuffer_of_le (h : numSemaphores ≤ r.currentSemaphoreIndex + 1) : r.presentCommandBuffer = none := by
  rw [presentCommandBuffer, imageAvailableSemaphore_of_le h]
  cases imageAvailableSemaphore r.currentSemaphoreIndex <;> rfl

/-- Each command buffer hands the signal on to the next one, and the last to the presentation of the image. -/
theorem presentCommandBuffers_of_lt (h : r.currentSemaphoreIndex + n < numSemaphores) :
    ∃ rest, (r.presentCommandBuffers n).bind present = some ⟨r.currentSemaphoreIndex + n,
      r.queue ++ relay ⟨r.currentSemaphoreIndex, by omega⟩ rest⟩ := by
  induction n generalizing r with
  | zero =>
    refine ⟨[], ?_⟩
    rw [presentCommandBuffers, Option.bind_some, present, imageAvailableSemaphore_of_lt (by omega)]
    rfl
  | succ n ih =>
    have hnext := presentCommandBuffer_of_lt (r := r) (by omega)
    obtain ⟨rest, hrest⟩ := ih (r := ⟨r.currentSemaphoreIndex + 1,
      r.queue ++ [.wait ⟨r.currentSemaphoreIndex, by omega⟩, .signal ⟨r.currentSemaphoreIndex + 1, by omega⟩]⟩)
      (by dsimp only; omega)
    refine ⟨⟨r.currentSemaphoreIndex + 1, by omega⟩ :: rest, ?_⟩
    rw [presentCommandBuffers, hnext, Option.bind_some, hrest, Option.some.injEq, mk.injEq]
    refine ⟨by dsimp only; omega, ?_⟩
    rw [relay, List.append_assoc]
    rfl

theorem presentCommandBuffers_of_le (hin : r.currentSemaphoreIndex < numSemaphores)
    (h : numSemaphores ≤ r.currentSemaphoreIndex + n) : r.presentCommandBuffers n = none := by
  induction n generalizing r with
  | zero => omega
  | succ n ih =>
    rcases Nat.lt_or_ge (r.currentSemaphoreIndex + 1) numSemaphores with hlt | hle
    · rw [presentCommandBuffers, presentCommandBuffer_of_lt hlt, Option.bind_some]
      exact ih hlt (by dsimp only; omega)
    · rw [presentCommandBuffers, presentCommandBuffer_of_le hle, Option.bind_none]

theorem presentCommandBuffers_succ (n : Nat) (r : VKRenderer) :
    r.presentCommandBuffers (n + 1) = (r.presentCommandBuffers n).bind presentCommandBuffer := by
  induction n generalizing r with
  | zero =>
    rw [presentCommandBuffers, presentCommandBuffers, Option.bind_some]
    cases r.presentCommandBuffer <;> rfl
  | succ n ih =>
    rw [presentCommandBuffers, presentCommandBuffers, Option.bind_assoc]
    congr 1
    funext r
    exact ih r

end VKRenderer

namespace RenderedFrame

variable {f : RenderedFrame} {r r' : VKRenderer}

/-- The signal that there is an image. -/
def signals (f : RenderedFrame) : List (Operation Semaphore) :=
  f.begun.elim [] fun result => if result.acquired then [.signal ⟨0, by decide⟩] else []

/-- Behind `Begin`. -/
def start (f : RenderedFrame) (r : VKRenderer) : VKRenderer := f.begun.elim r r.begin

def commandBuffers (f : RenderedFrame) : Nat := (f.begun.elim 0 fun _ => f.passes) + 1

theorem render_eq (f : RenderedFrame) (r : VKRenderer) :
    f.render r = ((f.start r).presentCommandBuffers f.commandBuffers).bind VKRenderer.present := by
  rw [commandBuffers, VKRenderer.presentCommandBuffers_succ, Option.bind_assoc]
  cases hbegun : f.begun with
  | none => simp only [render, hbegun, start, Option.elim_none]; rfl
  | some result => simp only [render, hbegun, start, Option.elim_some]; rfl

theorem start_queue (f : RenderedFrame) (r : VKRenderer) : (f.start r).queue = r.queue ++ f.signals := by
  cases hbegun : f.begun with
  | none => simp [start, signals, hbegun]
  | some result => simp [start, signals, hbegun, VKRenderer.begin]

theorem start_index (hr : r.currentSemaphoreIndex < numSemaphores) : (f.start r).currentSemaphoreIndex < numSemaphores := by
  cases hbegun : f.begun with
  | none => simpa only [start, hbegun, Option.elim_none] using hr
  | some result =>
    simp only [start, hbegun, Option.elim_some, VKRenderer.begin]
    decide

/-- What a frame adds to the queue, if it does not read behind the array. -/
theorem render_spec (hr : r.currentSemaphoreIndex < numSemaphores) (h : f.render r = some r') :
    ∃ s rest, r'.queue = r.queue ++ f.signals ++ relay s rest ∧ r'.currentSemaphoreIndex < numSemaphores ∧
      s.val = (f.start r).currentSemaphoreIndex ∧ (f.start r).currentSemaphoreIndex + f.commandBuffers < numSemaphores := by
  rw [render_eq] at h
  rcases Nat.lt_or_ge ((f.start r).currentSemaphoreIndex + f.commandBuffers) numSemaphores with hlt | hle
  · obtain ⟨rest, hrest⟩ := VKRenderer.presentCommandBuffers_of_lt hlt
    rw [hrest, Option.some.injEq] at h
    subst h
    exact ⟨_, rest, by rw [start_queue], hlt, rfl, hlt⟩
  · rw [VKRenderer.presentCommandBuffers_of_le (start_index hr) hle, Option.bind_none] at h
    cases h

theorem render_of_fine (h : f.Fine) (r : VKRenderer) : ∃ r', f.render r = some r' := by
  obtain ⟨result, hbegun, -, hpasses⟩ := h
  have hlt : (f.start r).currentSemaphoreIndex + f.commandBuffers < numSemaphores := by
    simp only [start, commandBuffers, Option.mem_def.mp hbegun, Option.elim_some, VKRenderer.begin]
    omega
  obtain ⟨rest, hrest⟩ := VKRenderer.presentCommandBuffers_of_lt hlt
  exact ⟨_, by rw [render_eq, hrest]⟩

/-- Whatever is submitted behind a frame, it all settles exactly if the frame is fine and what is behind it settles. -/
theorem settles_render_iff (hr : r.currentSemaphoreIndex < numSemaphores) (hqueue : Settles r.queue)
    (h : f.render r = some r') (operations : List (Operation Semaphore)) :
    Settles (r'.queue ++ operations) ↔ f.Fine ∧ Settles operations := by
  obtain ⟨s, rest, hadded, -, hs, hlt⟩ := render_spec hr h
  rw [hadded, List.append_assoc, List.append_assoc, hqueue.append_iff]
  cases hbegun : f.begun with
  | none =>
    have hnot : ¬ f.Fine := fun ⟨_, hsome, _⟩ => by rw [hbegun] at hsome; exact nomatch hsome
    simp only [signals, hbegun, Option.elim_none, List.nil_append]
    exact iff_of_false (not_settles_relay s rest operations) fun h => hnot h.1
  | some result =>
    simp only [start, hbegun, Option.elim_some, VKRenderer.begin, commandBuffers, Nat.zero_add] at hs hlt
    cases hresult : result.acquired with
    | false =>
      have hnot : ¬ f.Fine := by
        rintro ⟨result', hsome, hacquired, -⟩
        rw [hbegun, Option.mem_def, Option.some.injEq] at hsome
        rw [hsome, hacquired] at hresult
        exact Bool.noConfusion hresult
      simp only [signals, hbegun, Option.elim_some, hresult, Bool.false_eq_true, if_false, List.nil_append]
      exact iff_of_false (not_settles_relay s rest operations) fun h => hnot h.1
    | true =>
      have hfine : f.Fine := ⟨result, hbegun, hresult, hlt⟩
      have hzero : s = ⟨0, by decide⟩ := Fin.ext hs
      have hsettles := settles_relay s rest
      rw [hzero] at hsettles
      simp only [signals, hbegun, Option.elim_some, hresult, if_true, hzero, and_iff_right hfine, ← List.append_assoc]
      exact hsettles.append_iff operations

theorem settles_render_of_fine (hr : r.currentSemaphoreIndex < numSemaphores) (hqueue : Settles r.queue)
    (h : f.render r = some r') (hfine : f.Fine) : Settles r'.queue := by
  have hsettled := (settles_render_iff hr hqueue h []).mpr ⟨hfine, settles_nil⟩
  rwa [List.append_nil] at hsettled

end RenderedFrame

/-! ## Runs of frames -/

/-- The frames that are rendered, one after the other. -/
def VKRenderer.renderAll (r : VKRenderer) (frames : List RenderedFrame) : Option VKRenderer :=
  frames.foldlM (fun r f => f.render r) r

theorem VKRenderer.renderAll_append (r : VKRenderer) (frames frames' : List RenderedFrame) :
    r.renderAll (frames ++ frames') = (r.renderAll frames).bind fun r => r.renderAll frames' :=
  List.foldlM_append ..

theorem VKRenderer.renderAll_singleton (f : RenderedFrame) (r : VKRenderer) : r.renderAll [f] = f.render r := by
  rw [renderAll, List.foldlM_cons]
  cases f.render r <;> rfl

/-- What is submitted behind what has been submitted. -/
theorem VKRenderer.renderAll_queue {r r' : VKRenderer} (hr : r.currentSemaphoreIndex < numSemaphores)
    {frames : List RenderedFrame} (h : r.renderAll frames = some r') : ∃ operations, r'.queue = r.queue ++ operations := by
  induction frames generalizing r with
  | nil =>
    cases h
    exact ⟨[], (List.append_nil _).symm⟩
  | cons f frames ih =>
    obtain ⟨next, hnext, hrest⟩ := Option.bind_eq_some_iff.mp h
    obtain ⟨s, rest, hadded, hindex, -⟩ := RenderedFrame.render_spec hr hnext
    obtain ⟨operations, hoperations⟩ := ih hindex hrest
    exact ⟨f.signals ++ relay s rest ++ operations, by rw [hoperations, hadded]; simp only [List.append_assoc]⟩

/-- From any place that the renderer comes to between frames. -/
theorem VKRenderer.renderAll_iff_of_settles {r : VKRenderer} (hr : r.currentSemaphoreIndex < numSemaphores)
    (hqueue : Settles r.queue) (frames : List RenderedFrame) :
    (∃ r', r.renderAll frames = some r' ∧ Settles r'.queue) ↔ ∀ f ∈ frames, f.Fine := by
  induction frames generalizing r with
  | nil => exact iff_of_true ⟨r, rfl, hqueue⟩ nofun
  | cons f frames ih =>
    rw [List.forall_mem_cons]
    constructor
    · rintro ⟨r', hrun, hsettles⟩
      obtain ⟨next, hnext, hrest⟩ := Option.bind_eq_some_iff.mp hrun
      obtain ⟨_, _, _, hindex, -⟩ := RenderedFrame.render_spec hr hnext
      obtain ⟨operations, hoperations⟩ := renderAll_queue hindex hrest
      have hfine : f.Fine := by
        rw [hoperations] at hsettles
        exact ((RenderedFrame.settles_render_iff hr hqueue hnext operations).mp hsettles).1
      have hsettled := RenderedFrame.settles_render_of_fine hr hqueue hnext hfine
      exact ⟨hfine, (ih hindex hsettled).mp ⟨r', hrest, hsettles⟩⟩
    · rintro ⟨hfine, hframes⟩
      obtain ⟨next, hnext⟩ := RenderedFrame.render_of_fine hfine r
      obtain ⟨_, _, _, hindex, -⟩ := RenderedFrame.render_spec hr hnext
      have hsettled := RenderedFrame.settles_render_of_fine hr hqueue hnext hfine
      obtain ⟨r', hrest, hsettles⟩ := (ih hindex hsettled).mpr hframes
      exact ⟨r', Option.bind_eq_some_iff.mpr ⟨next, hnext, hrest⟩, hsettles⟩

/-- No frame reads behind the semaphores and no command buffer waits for ever, in any run of frames from the start,
exactly if each frame begins with an image that has been acquired and has at most eight passes that submit command
buffers. -/
theorem VKRenderer.renderAll_iff (frames : List RenderedFrame) :
    (∃ r, create.renderAll frames = some r ∧ Settles r.queue) ↔ ∀ f ∈ frames, f.Fine :=
  renderAll_iff_of_settles (by decide) settles_nil frames

end Lumos.Platform
