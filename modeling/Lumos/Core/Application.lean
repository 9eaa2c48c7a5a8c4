import Mathlib
import Lumos.Library.Latch
import Lumos.Platform.VKRenderer

/-!
# `Application`

A frame updates the scene and renders it, and only then asks the window what has happened. What has happened is seen
by the next update, and by no other where it has just been pressed.
-/
namespace Lumos.Core

open Platform Latch BinarySemaphores

/-! ## Events -/

/-- Below `MAX_KEYS`. -/
abbrev Key := Fin 1024

/-- Below `MAX_BUTTONS`. -/
abbrev MouseKey := Fin 32

def Key.escape : Key := 256

inductive Event (C : Type) where
  | windowClose
  | windowResize (width height : Nat)
  | keyPressed (keyCode : Key) (repeatCount : Nat)
  | keyReleased (keyCode : Key)
  | keyTyped (keyCode : Key) (character : Char)
  | mouseButtonPressed (button : MouseKey)
  | mouseButtonReleased (button : MouseKey)
  | mouseMoved (x y : C)
  | mouseScrolled (xOffset yOffset : C)
  | mouseEntered (entered : Bool)

structure Input (C : Type) where
  keyPressed : Key → Bool
  keyHeld : Key → Bool
  mouseHeld : MouseKey → Bool
  mouseClicked : MouseKey → Bool
  scrollOffset : C
  mouseOnScreen : Bool
  mousePosition : C × C

namespace Input

variable {C : Type} [Zero C]

/-- `Create` -/
def create : Input C := ⟨fun _ => false, fun _ => false, fun _ => false, fun _ => false, 0, true, (0, 0)⟩

def resetPressed (input : Input C) : Input C :=
  { input with keyPressed := fun _ => false, mouseClicked := fun _ => false, scrollOffset := 0 }

omit [Zero C] in
/-- Nothing is ever handled here. -/
def onEvent (input : Input C) : Event C → Input C
  | .keyPressed key repeatCount => { input with
      keyPressed := Function.update input.keyPressed key (repeatCount < 1)
      keyHeld := Function.update input.keyHeld key true }
  | .keyReleased key => { input with
      keyPressed := Function.update input.keyPressed key false
      keyHeld := Function.update input.keyHeld key false }
  | .mouseButtonPressed button => { input with
      mouseClicked := Function.update input.mouseClicked button true
      mouseHeld := Function.update input.mouseHeld button true }
  | .mouseButtonReleased button => { input with
      mouseClicked := Function.update input.mouseClicked button false
      mouseHeld := Function.update input.mouseHeld button false }
  | .mouseScrolled _ yOffset => { input with scrollOffset := yOffset }
  | .mouseMoved x y => { input with mousePosition := (x, y) }
  | .mouseEntered entered => { input with mouseOnScreen := entered }
  | .windowClose | .windowResize _ _ | .keyTyped _ _ => input

end Input

/-- Of `ImGuiIO` the keys, and whether a text field has the focus. -/
structure ImGuiIO where
  keysDown : Key → Bool
  wantTextInput : Bool

/-- `ImGuiManager::OnEvent`. With a text field in focus keys that are pressed are handled. -/
def ImGuiIO.onEvent {C : Type} (io : ImGuiIO) : Event C → Bool × ImGuiIO
  | .keyPressed key _ => (io.wantTextInput, { io with keysDown := Function.update io.keysDown key true })
  | .keyReleased key => (false, { io with keysDown := Function.update io.keysDown key false })
  | _ => (false, io)

/-! ## Frames -/

inductive AppState where
  | Running | Loading | Closing
  deriving DecidableEq

structure Application (C : Type) where
  input : Input C
  io : ImGuiIO
  minimized : Bool
  currentState : AppState
  renderer : VKRenderer

/-- What a frame meets: whether a text field gets the focus, what is asked of the renderer if it renders, and the
events that the window polls. -/
structure Frame (C : Type) where
  wantTextInput : Bool
  rendered : RenderedFrame
  events : List (Event C)

namespace Application

variable {C : Type} [Zero C]

/-- Behind `Init`. -/
def create : Application C := ⟨.create, ⟨fun _ => false, false⟩, false, .Running, .create⟩

/-- Closing handles the event, and the user interface may. -/
def onEvent (app : Application C) (e : Event C) : Application C :=
  match e with
  | .windowClose => { app with currentState := .Closing }
  | e =>
    let app :=
      match e with
      | .windowResize width height => { app with minimized := width == 0 || height == 0 }
      | _ => app
    let (handled, io) := app.io.onEvent e
    { app with io, input := if handled then app.input else app.input.onEvent e }

/-- `OnRender` and `Present`, after the update. -/
def render (app : Application C) (f : Frame C) : Option VKRenderer :=
  if app.minimized then some app.renderer else f.rendered.render app.renderer

/-- The rest of a frame: the window is asked for events, and Escape is looked for behind them. -/
def poll (app : Application C) (f : Frame C) (renderer : VKRenderer) : Application C :=
  let io := { app.io with wantTextInput := f.wantTextInput }
  let app := f.events.foldl onEvent { app with io, renderer, input := app.input.resetPressed }
  if app.input.keyPressed .escape then { app with currentState := .Closing } else app

def onFrame (app : Application C) (f : Frame C) : Option (Application C) := (app.render f).map (app.poll f)

/-! ## What a frame does -/

/-- Which events come to the input. -/
def reaches (wantTextInput : Bool) : Event C → Bool
  | .windowClose => false
  | .keyPressed _ _ => !wantTextInput
  | _ => true

end Application

/-- The events of a frame that come to the input. -/
def Frame.reached {C : Type} (f : Frame C) : List (Event C) := f.events.filter (Application.reaches f.wantTextInput)

namespace Application

variable {C : Type} {app app' : Application C}

/-- What an event leaves alone, and what it does to the input. -/
structure Follows (app : Application C) (e : Event C) (app' : Application C) : Prop where
  renderer : app'.renderer = app.renderer
  wantTextInput : app'.io.wantTextInput = app.io.wantTextInput
  input : app'.input = if reaches app.io.wantTextInput e then app.input.onEvent e else app.input

theorem follows_onEvent (app : Application C) (e : Event C) : Follows app e (app.onEvent e) := by
  cases e with
  | keyPressed key repeatCount =>
    refine ⟨rfl, rfl, ?_⟩
    cases hwant : app.io.wantTextInput <;> simp [onEvent, ImGuiIO.onEvent, reaches, hwant]
  | _ => exact ⟨rfl, rfl, rfl⟩

theorem foldl_onEvent_renderer (events : List (Event C)) (app : Application C) :
    (events.foldl onEvent app).renderer = app.renderer :=
  List.foldlRecOn (motive := fun now : Application C => now.renderer = app.renderer) events _ rfl
    fun now h e _ => (follows_onEvent now e).renderer.trans h

theorem foldl_onEvent_input (events : List (Event C)) (app : Application C) : (events.foldl onEvent app).input =
    (events.filter (reaches app.io.wantTextInput)).foldl Input.onEvent app.input := by
  induction events generalizing app with
  | nil => rfl
  | cons e events ih =>
    have hfirst := follows_onEvent app e
    rw [List.foldl_cons, ih, hfirst.wantTextInput, hfirst.input, List.filter_cons]
    split <;> rfl

section Frame

variable [Zero C] {f : Frame C} {renderer : VKRenderer}

theorem poll_input : (app.poll f renderer).input = f.reached.foldl Input.onEvent app.input.resetPressed := by
  have hevents := foldl_onEvent_input f.events
    { app with io := { app.io with wantTextInput := f.wantTextInput }, renderer, input := app.input.resetPressed }
  unfold poll
  dsimp only
  split <;> exact hevents

theorem poll_renderer : (app.poll f renderer).renderer = renderer := by
  have hevents := foldl_onEvent_renderer f.events
    { app with io := { app.io with wantTextInput := f.wantTextInput }, renderer, input := app.input.resetPressed }
  unfold poll
  dsimp only
  split <;> exact hevents

end Frame

end Application

/-! ## Keys and buttons -/

section Flags

variable {C : Type} (key : Key) (button : MouseKey)

def Presses : Event C → Prop
  | .keyPressed k _ => k = key
  | _ => False

def PressesFirst : Event C → Prop
  | .keyPressed k repeatCount => k = key ∧ repeatCount = 0
  | _ => False

def Releases : Event C → Prop
  | .keyReleased k => k = key
  | _ => False

/-- Also a key that is pressed again without having been released. -/
def EndsPress : Event C → Prop
  | .keyReleased k => k = key
  | .keyPressed k repeatCount => k = key ∧ repeatCount ≠ 0
  | _ => False

def Clicks : Event C → Prop
  | .mouseButtonPressed b => b = button
  | _ => False

def Unclicks : Event C → Prop
  | .mouseButtonReleased b => b = button
  | _ => False

/-- To nothing. -/
def Collapses : Event C → Prop
  | .windowResize width height => width = 0 ∨ height = 0
  | _ => False

def Restores : Event C → Prop
  | .windowResize width height => width ≠ 0 ∧ height ≠ 0
  | _ => False

/-- What writing one entry of an array does to another. -/
theorem update_true_iff {n : Nat} (a : Fin n → Bool) (i j : Fin n) (b : Bool) :
    Function.update a i b j = true ↔ (i = j ∧ b = true) ∨ (a j = true ∧ ¬ i = j) := by
  by_cases h : j = i
  · subst h
    simp
  · rw [Function.update_of_ne h]
    simp [Ne.symm h]

theorem onEvent_keyHeld (input : Input C) (e : Event C) : (input.onEvent e).keyHeld key = true ↔
    Presses key e ∨ input.keyHeld key = true ∧ ¬ Releases key e := by
  cases e with
  | keyPressed k repeatCount =>
    simp only [Input.onEvent, Presses, Releases, update_true_iff]
    tauto
  | keyReleased k => simp [Input.onEvent, Presses, Releases, update_true_iff]
  | _ => simp [Input.onEvent, Presses, Releases]

theorem onEvent_keyPressed (input : Input C) (e : Event C) : (input.onEvent e).keyPressed key = true ↔
    PressesFirst key e ∨ input.keyPressed key = true ∧ ¬ EndsPress key e := by
  cases e with
  | keyPressed k repeatCount =>
    simp only [Input.onEvent, PressesFirst, EndsPress, update_true_iff, decide_eq_true_iff, Nat.lt_one_iff]
    tauto
  | keyReleased k => simp [Input.onEvent, PressesFirst, EndsPress, update_true_iff]
  | _ => simp [Input.onEvent, PressesFirst, EndsPress]

theorem onEvent_mouseHeld (input : Input C) (e : Event C) : (input.onEvent e).mouseHeld button = true ↔
    Clicks button e ∨ input.mouseHeld button = true ∧ ¬ Unclicks button e := by
  cases e with
  | mouseButtonPressed b =>
    simp only [Input.onEvent, Clicks, Unclicks, update_true_iff]
    tauto
  | mouseButtonReleased b => simp [Input.onEvent, Clicks, Unclicks, update_true_iff]
  | _ => simp [Input.onEvent, Clicks, Unclicks]

theorem onEvent_mouseClicked (input : Input C) (e : Event C) : (input.onEvent e).mouseClicked button = true ↔
    Clicks button e ∨ input.mouseClicked button = true ∧ ¬ Unclicks button e := by
  cases e with
  | mouseButtonPressed b =>
    simp only [Input.onEvent, Clicks, Unclicks, update_true_iff]
    tauto
  | mouseButtonReleased b => simp [Input.onEvent, Clicks, Unclicks, update_true_iff]
  | _ => simp [Input.onEvent, Clicks, Unclicks]

theorem onEvent_keysDown (io : ImGuiIO) (e : Event C) : (io.onEvent e).2.keysDown key = true ↔
    Presses key e ∨ io.keysDown key = true ∧ ¬ Releases key e := by
  cases e with
  | keyPressed k repeatCount =>
    simp only [Presses, Releases, ImGuiIO.onEvent, update_true_iff]
    tauto
  | keyReleased k => simp [Presses, Releases, ImGuiIO.onEvent, update_true_iff]
  | _ => simp [Presses, Releases, ImGuiIO.onEvent]

end Flags

/-! ## Runs of frames -/

namespace Application

variable {C : Type} [Zero C] {app app' : Application C} {f : Frame C} {renderer : VKRenderer} (key : Key)
  (button : MouseKey)

theorem poll_keyHeld : (app.poll f renderer).input.keyHeld key = true ↔
    Latched (Presses key) (Releases key) f.reached ∨
      app.input.keyHeld key = true ∧ ∀ e ∈ f.reached, ¬ Releases key e := by
  rw [poll_input, flag_foldl (fun input : Input C => input.keyHeld key = true) (onEvent_keyHeld key)]
  rfl

theorem poll_mouseHeld : (app.poll f renderer).input.mouseHeld button = true ↔
    Latched (Clicks button) (Unclicks button) f.reached ∨
      app.input.mouseHeld button = true ∧ ∀ e ∈ f.reached, ¬ Unclicks button e := by
  rw [poll_input, flag_foldl (fun input : Input C => input.mouseHeld button = true) (onEvent_mouseHeld button)]
  rfl

/-- What has been pressed in an earlier frame does not matter. -/
theorem poll_keyPressed : (app.poll f renderer).input.keyPressed key = true ↔
    Latched (PressesFirst key) (EndsPress key) f.reached := by
  rw [poll_input, flag_foldl (fun input : Input C => input.keyPressed key = true) (onEvent_keyPressed key)]
  simp [Input.resetPressed]

theorem poll_mouseClicked : (app.poll f renderer).input.mouseClicked button = true ↔
    Latched (Clicks button) (Unclicks button) f.reached := by
  rw [poll_input, flag_foldl (fun input : Input C => input.mouseClicked button = true) (onEvent_mouseClicked button)]
  simp [Input.resetPressed]

theorem poll_keysDown : (app.poll f renderer).io.keysDown key = true ↔
    Latched (Presses key) (Releases key) f.events ∨ app.io.keysDown key = true ∧ ∀ e ∈ f.events, ¬ Releases key e := by
  have hevent : ∀ (now : Application C) (e : Event C), (now.onEvent e).io.keysDown key = true ↔
      Presses key e ∨ now.io.keysDown key = true ∧ ¬ Releases key e := by
    intro now e
    have hio : (now.onEvent e).io = (now.io.onEvent e).2 := by cases e <;> rfl
    rw [hio, onEvent_keysDown]
  have hevents := flag_foldl (fun now : Application C => now.io.keysDown key = true) hevent f.events
    { app with io := { app.io with wantTextInput := f.wantTextInput }, renderer, input := app.input.resetPressed }
  unfold poll
  dsimp only
  split <;> exact hevents

/-- Whether the window is minimized behind an event. -/
def resized (minimized : Bool) : Event C → Bool
  | .windowResize width height => width == 0 || height == 0
  | _ => minimized

theorem poll_minimized : (app.poll f renderer).minimized = f.events.foldl resized app.minimized := by
  have hevents : ∀ (events : List (Event C)) (now : Application C),
      (events.foldl onEvent now).minimized = events.foldl resized now.minimized := by
    intro events
    induction events with
    | nil => exact fun now => rfl
    | cons e events ih =>
      intro now
      have hfirst : (now.onEvent e).minimized = resized now.minimized e := by cases e <;> rfl
      rw [List.foldl_cons, ih, hfirst, List.foldl_cons]
  have hfinished := hevents f.events
    { app with io := { app.io with wantTextInput := f.wantTextInput }, renderer, input := app.input.resetPressed }
  unfold poll
  dsimp only
  split <;> exact hfinished

omit [Zero C] in
/-- The last event that has changed the size decides. -/
theorem foldl_resized (events : List (Event C)) : events.foldl resized false = true ↔ Latched Collapses Restores events := by
  have hevent : ∀ (minimized : Bool) (e : Event C), resized minimized e = true ↔
      Collapses e ∨ minimized = true ∧ ¬ Restores e := by
    intro minimized e
    cases e with
    | windowResize width height =>
      simp only [resized, Collapses, Restores, Bool.or_eq_true, beq_iff_eq]
      tauto
    | _ => simp [resized, Collapses, Restores]
  have hevents := flag_foldl (fun minimized : Bool => minimized = true) hevent events false
  simpa using hevents

/-- What ends the loop of `Run`. -/
def Closes (f : Frame C) : Prop :=
  (∃ e ∈ f.events, e = .windowClose) ∨ Latched (PressesFirst .escape) (EndsPress .escape) f.reached

theorem poll_closing : (app.poll f renderer).currentState = .Closing ↔ Closes f ∨ app.currentState = .Closing := by
  have hevent : ∀ (now : Application C) (e : Event C), (now.onEvent e).currentState = .Closing ↔
      e = .windowClose ∨ now.currentState = .Closing ∧ ¬ False := by
    intro now e
    cases e <;> simp [onEvent]
  have hevents := flag_foldl (fun now : Application C => now.currentState = .Closing) hevent f.events
    { app with io := { app.io with wantTextInput := f.wantTextInput }, renderer, input := app.input.resetPressed }
  have hescape := @poll_keyPressed _ _ app f renderer .escape
  rw [latched_of_clears_none] at hevents
  rw [Closes, ← hescape]
  unfold poll at hescape ⊢
  dsimp only at hescape ⊢
  split
  · next hpressed => simp [hpressed]
  · next hpressed => simpa [hpressed] using hevents

/-- `Run` -/
def run : List (Frame C) → Application C → Option (Application C)
  | [], app => some app
  | f :: frames, app => (app.onFrame f).bind fun app => if app.currentState = .Closing then some app else run frames app

theorem onFrame_eq_some : app.onFrame f = some app' ↔ ∃ renderer, app.render f = some renderer ∧ app.poll f renderer = app' :=
  Option.map_eq_some_iff

theorem open_of_onFrame (hf : ¬ Closes f) (happ : app.currentState ≠ .Closing) (h : app.onFrame f = some app') :
    app'.currentState ≠ .Closing := by
  obtain ⟨renderer, -, rfl⟩ := onFrame_eq_some.mp h
  exact fun hclosing => (poll_closing.mp hclosing).elim hf happ

/-- The loop goes on through frames that do not end it. -/
theorem open_of_frames {frames : List (Frame C)} (hopen : ∀ g ∈ frames, ¬ Closes g)
    (happ : app.currentState ≠ .Closing) (h : frames.foldlM onFrame app = some app') : app'.currentState ≠ .Closing := by
  induction frames generalizing app with
  | nil =>
    cases h
    exact happ
  | cons g frames ih =>
    obtain ⟨hg, hframes⟩ := List.forall_mem_cons.mp hopen
    obtain ⟨next, hnext, hrest⟩ := Option.bind_eq_some_iff.mp h
    exact ih hframes (open_of_onFrame hg happ hnext) hrest

/-- As long as nothing ends the loop all frames are run. -/
theorem run_append {before frames : List (Frame C)} (hopen : ∀ g ∈ before, ¬ Closes g)
    (happ : app.currentState ≠ .Closing) : run (before ++ frames) app = (before.foldlM onFrame app).bind (run frames) := by
  induction before generalizing app with
  | nil => rfl
  | cons g before ih =>
    obtain ⟨hg, hbefore⟩ := List.forall_mem_cons.mp hopen
    rw [List.cons_append, run, List.foldlM_cons, Option.bind_eq_bind, Option.bind_assoc]
    cases hnext : app.onFrame g with
    | none => rfl
    | some next =>
      have hstate := open_of_onFrame hg happ hnext
      rw [Option.bind_some, if_neg hstate, ih hbefore hstate, Option.bind_some]

theorem run_concat {before : List (Frame C)} (hopen : ∀ g ∈ before, ¬ Closes g) (happ : app.currentState ≠ .Closing)
    (f : Frame C) : run (before ++ [f]) app = (before ++ [f]).foldlM onFrame app := by
  rw [run_append hopen happ, List.foldlM_append, Option.bind_eq_bind]
  congr 1
  funext now
  rw [run, List.foldlM_cons]
  cases now.onFrame f with
  | none => rfl
  | some next => exact ite_self _

/-! ## What is held -/

/-- A flag that the events of a frame set and clear is set and cleared by the events of all frames. -/
theorem flag_of_frames (flag : Application C → Prop) {sets clears : Event C → Prop} {g : Frame C → List (Event C)}
    (hpoll : ∀ (app : Application C) f renderer, flag (app.poll f renderer) ↔
      Latched sets clears (g f) ∨ flag app ∧ ∀ e ∈ g f, ¬ clears e) (happ : ¬ flag app) {frames : List (Frame C)}
    (h : frames.foldlM onFrame app = some app') : flag app' ↔ Latched sets clears (frames.flatMap g) := by
  have hstep : ∀ (s : Application C) (f : Frame C) (t : Application C), s.onFrame f = some t →
      (flag t ↔ Latched sets clears (g f) ∨ flag s ∧ ¬ ∃ e ∈ g f, clears e) := by
    intro s f t hframe
    obtain ⟨renderer, -, rfl⟩ := onFrame_eq_some.mp hframe
    rw [hpoll, not_exists]
    simp only [not_and]
  rw [flag_foldlM flag hstep frames h, latched_flatMap]
  exact or_iff_left fun hflag => happ hflag.1

/-- What the last frame has left, where all frames before have let the loop go on. -/
structure Told (before : List (Frame C)) (f : Frame C) (app : Application C) : Prop where
  keyHeld : ∀ key, app.input.keyHeld key = true ↔
    Latched (Presses key) (Releases key) ((before ++ [f]).flatMap Frame.reached)
  keyPressed : ∀ key, app.input.keyPressed key = true ↔ Latched (PressesFirst key) (EndsPress key) f.reached
  mouseHeld : ∀ button, app.input.mouseHeld button = true ↔
    Latched (Clicks button) (Unclicks button) ((before ++ [f]).flatMap Frame.reached)
  mouseClicked : ∀ button, app.input.mouseClicked button = true ↔
    Latched (Clicks button) (Unclicks button) f.reached
  keysDown : ∀ key, app.io.keysDown key = true ↔
    Latched (Presses key) (Releases key) ((before ++ [f]).flatMap Frame.events)
  closing : app.currentState = .Closing ↔ Closes f

omit [Zero C] in
/-- What the input takes to be held the user interface does too. -/
theorem Told.keysDown_of_keyHeld {before : List (Frame C)} (h : Told before f app) {key : Key}
    (hheld : app.input.keyHeld key = true) : app.io.keysDown key = true := by
  rw [h.keyHeld, latched_flatMap] at hheld
  rw [h.keysDown, latched_flatMap]
  have hreleases : ∀ (wantTextInput : Bool) (e : Event C), Releases key e → reaches wantTextInput e = true := by
    intro wantTextInput e he
    cases e with
    | keyReleased k => rfl
    | _ => exact he.elim
  refine hheld.mono (fun g hg => hg.of_filter (hreleases g.wantTextInput)) ?_
  rintro g ⟨e, he, hrelease⟩
  exact ⟨e, List.mem_filter.mpr ⟨he, hreleases g.wantTextInput e hrelease⟩, hrelease⟩

section Rendered

open Classical in
/-- What the frames of a run ask of the renderer. -/
noncomputable def shown : Bool → List (Frame C) → List RenderedFrame
  | _, [] => []
  | minimized, f :: frames =>
    (if minimized then [] else [f.rendered]) ++
      if Closes f then [] else shown (f.events.foldl resized minimized) frames

omit [Zero C] in
/-- What is shown is what frames behind which the loop goes on leave to be shown. -/
theorem mem_shown {rendered : RenderedFrame} (minimized : Bool) (frames : List (Frame C)) :
    rendered ∈ shown minimized frames ↔ ∃ before f after, frames = before ++ f :: after ∧ (∀ g ∈ before, ¬ Closes g) ∧
      (before.flatMap Frame.events).foldl resized minimized = false ∧ f.rendered = rendered := by
  induction frames generalizing minimized with
  | nil => simp [shown]
  | cons f frames ih =>
    rw [shown, List.mem_append]
    constructor
    · rintro (hfirst | hrest)
      · split at hfirst
        · cases hfirst
        · next hminimized =>
          exact ⟨[], f, frames, rfl, nofun, Bool.eq_false_iff.mpr hminimized, (List.mem_singleton.mp hfirst).symm⟩
      · split at hrest
        · cases hrest
        · next hcloses =>
          obtain ⟨before, g, after, hframes, hopen, hnow, hg⟩ := (ih _).mp hrest
          refine ⟨f :: before, g, after, by rw [hframes]; rfl, List.forall_mem_cons.mpr ⟨hcloses, hopen⟩, ?_, hg⟩
          rwa [List.flatMap_cons, List.foldl_append]
    · rintro ⟨before, g, after, hframes, hopen, hnow, hg⟩
      cases before with
      | nil =>
        obtain ⟨rfl, rfl⟩ := List.cons.inj hframes
        left
        have hminimized : minimized = false := hnow
        rw [hminimized, ← hg]
        exact List.mem_singleton_self _
      | cons first before =>
        obtain ⟨rfl, rfl⟩ := List.cons.inj hframes
        obtain ⟨hfirst, hbefore⟩ := List.forall_mem_cons.mp hopen
        rw [List.flatMap_cons, List.foldl_append] at hnow
        right
        rw [if_neg hfirst, ih]
        exact ⟨before, g, after, rfl, hbefore, hnow, hg⟩

/-- The renderer of a run has rendered what is shown. -/
theorem run_renderer (frames : List (Frame C)) (happ : app.currentState ≠ .Closing) :
    (run frames app).map Application.renderer = app.renderer.renderAll (shown app.minimized frames) := by
  induction frames generalizing app with
  | nil => rfl
  | cons f frames ih =>
    have hrender : app.render f = app.renderer.renderAll (if app.minimized then [] else [f.rendered]) := by
      unfold render
      split
      · rfl
      · exact (VKRenderer.renderAll_singleton f.rendered app.renderer).symm
    rw [run, shown, VKRenderer.renderAll_append, ← hrender, onFrame]
    cases app.render f with
    | none => rfl
    | some rendered =>
      rw [Option.map_some, Option.bind_some, Option.bind_some]
      by_cases hcloses : Closes f
      · rw [if_pos (poll_closing.mpr (.inl hcloses)), if_pos hcloses, Option.map_some, poll_renderer]
        rfl
      · have hstate : (app.poll f rendered).currentState ≠ .Closing := fun h => (poll_closing.mp h).elim hcloses happ
        rw [if_neg hstate, if_neg hcloses, ih hstate, poll_renderer, poll_minimized]

/-- The loop never reads behind the semaphores of the renderer and never waits for ever, whatever events there are, exactly
if each frame that it comes to with a window that is not minimized acquires an image and has at most eight passes that
submit command buffers. -/
theorem settles_run_iff (frames : List (Frame C)) :
    (∃ app, run frames create = some app ∧ Settles app.renderer.queue) ↔
      ∀ before f after, frames = before ++ f :: after → (∀ g ∈ before, ¬ Closes g) →
        ¬ Latched Collapses Restores (before.flatMap Frame.events) → f.rendered.Fine := by
  have hstart : (create : Application C).currentState ≠ .Closing := by simp [create]
  have hrenderer := run_renderer frames hstart
  have hrun : (∃ app, run frames create = some app ∧ Settles app.renderer.queue) ↔
      ∃ r, VKRenderer.create.renderAll (shown false frames) = some r ∧ Settles r.queue := by
    constructor
    · rintro ⟨app, happ, hsettles⟩
      rw [happ, Option.map_some] at hrenderer
      exact ⟨app.renderer, hrenderer.symm, hsettles⟩
    · rintro ⟨r, hr, hsettles⟩
      obtain ⟨app, happ, rfl⟩ := Option.map_eq_some_iff.mp (hrenderer.trans hr)
      exact ⟨app, happ, hsettles⟩
  rw [hrun, VKRenderer.renderAll_iff]
  constructor
  · intro hfine before f after hframes hopen hlatched
    rw [← foldl_resized, Bool.not_eq_true] at hlatched
    exact hfine _ ((mem_shown false frames).mpr ⟨before, f, after, hframes, hopen, hlatched, rfl⟩)
  · intro hfine rendered hrendered
    obtain ⟨before, f, after, hframes, hopen, hnow, rfl⟩ := (mem_shown false frames).mp hrendered
    rw [← Bool.not_eq_true, foldl_resized] at hnow
    exact hfine before f after hframes hopen hnow

end Rendered

end Application

end Lumos.Core
