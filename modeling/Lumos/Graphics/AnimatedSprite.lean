import Lumos.Library.TriangleWave
import Lumos.Scene.ComponentArchive

/-!
# `AnimatedSprite`

The frame that is shown, the timer and the direction are kept beside the table of states. They
outlast the frames they were counted for: a state may be replaced, and a list may have one
frame only.
-/
namespace Lumos.Graphics.AnimatedSprite

open Maths FloatArithmetic FloatLiterals
open Serialisation (PlayMode AnimationState)
open Library.TriangleWave

variable {K : Type}

/-! ## The class -/

structure Sprite (K : Type) extends Serialisation.AnimatedSprite K where
  currentFrame : Nat
  frameTimer : K
  forward : Bool
  uvs : List (Vector2 K)

/-- `index` for a frame beyond the list, `texture` for the size of no texture. -/
inductive Fault where
  | index
  | texture
  deriving DecidableEq

def Sprite.currentState (s : Sprite K) : Option (AnimationState K) := s.animationStates.lookup s.state

/-- `++` on a `uint32_t` -/
def succ32 (n : Nat) : Nat := (n + 1) % 2 ^ 32

/-- `--` on a `uint32_t` -/
def pred32 (n : Nat) : Nat := (n + (2 ^ 32 - 1)) % 2 ^ 32

/-- `size() - 1`, in 64 bits -/
def lastFrame : List (Vector2 K) → Nat
  | [] => 2 ^ 64 - 1
  | _ :: rest => rest.length

/-- What `OnUpdate` makes of the frame when the timer has run out. -/
def advance (currentState : AnimationState K) (s : Sprite K) : Sprite K :=
  if s.forward then
    if s.currentFrame = lastFrame currentState.frames then
      match currentState.mode with
      | .pingPong => { s with currentFrame := pred32 s.currentFrame, forward := false }
      | .loop => { s with currentFrame := 0 }
    else { s with currentFrame := succ32 s.currentFrame }
  -- at the first frame both modes do the same
  else if s.currentFrame = 0 then { s with currentFrame := 1, forward := true }
  else { s with currentFrame := pred32 s.currentFrame }

section Calls

variable [FloatLiterals K] (size : String → K × K)

def getDefaultUVs : List (Vector2 K) := [⟨0, 1⟩, ⟨1, 1⟩, ⟨1, 0⟩, ⟨0, 0⟩]

def getUVs (min max : Vector2 K) : List (Vector2 K) := [⟨min.x, max.y⟩, max, ⟨max.x, min.y⟩, min]

/-- The corners of a frame, by the width and height of the texture. -/
def frameUVs (s : Sprite K) (frame : Vector2 K) (texture : String) : List (Vector2 K) :=
  let (width, height) := size texture
  getUVs ⟨frame.x / width, frame.y / height⟩ ⟨(frame.x + s.scale.x) / width, (frame.y + s.scale.y) / height⟩

/-- Asking for a state there is none of inserts one. -/
def getAnimatedUVs (s : Sprite K) : Except Fault (List (Vector2 K) × Sprite K) :=
  match s.currentState with
  | none => .ok (getDefaultUVs, { s with animationStates := s.animationStates.insert s.state AnimationState.new })
  | some currentState =>
    if currentState.frames.isEmpty then .ok (getDefaultUVs, s)
    else match currentState.frames[s.currentFrame]?, s.texture with
      | none, _ => .error .index
      | some _, none => .error .texture
      | some frame, some texture =>
        .ok (frameUVs size s frame texture, { s with uvs := frameUVs size s frame texture })

/-- Whether an update shows another frame. -/
def due (s : Sprite K) (dt : K) : Bool :=
  match s.currentState with
  | none => false
  | some currentState => le currentState.frameDuration (s.frameTimer + dt)

def onUpdate (dt : K) (s : Sprite K) : Except Fault (Sprite K) :=
  match s.currentState with
  | none => .ok s
  | some currentState =>
    if le currentState.frameDuration (s.frameTimer + dt) then
      (getAnimatedUVs size (advance currentState { s with frameTimer := 0 })).map Prod.snd
    else .ok { s with frameTimer := s.frameTimer + dt }

def addState (frames : List (Vector2 K)) (frameDuration : K) (stateName : String) (s : Sprite K) : Sprite K :=
  { s with animationStates := s.animationStates.insert stateName ⟨.loop, frames, frameDuration⟩ }

def setState (state : String) (s : Sprite K) : Except Fault (Sprite K) :=
  (getAnimatedUVs size { s with state, currentFrame := 0, frameTimer := 0 }).map fun r => { r.2 with uvs := r.1 }

/-- Between the calls the renderer may ask for the frame as well. -/
inductive Call (K : Type) where
  | addState (frames : List (Vector2 K)) (frameDuration : K) (stateName : String)
  | setState (state : String)
  | onUpdate (dt : K)
  | getAnimatedUVs

def step (s : Sprite K) : Call K → Except Fault (Sprite K)
  | .addState frames frameDuration stateName => .ok (addState frames frameDuration stateName s)
  | .setState state => setState size state s
  | .onUpdate dt => onUpdate size dt s
  | .getAnimatedUVs => (getAnimatedUVs size s).map Prod.snd

/-- Counts the frames shown since the state was set. -/
def turnsAfter (s : Sprite K) (turns : Nat) : Call K → Nat
  | .setState _ => 0
  | .onUpdate dt => if due s dt then turns + 1 else turns
  | _ => turns

def countedStep (counted : Sprite K × Nat) (call : Call K) : Except Fault (Sprite K × Nat) :=
  (step size counted.1 call).map fun s => (s, turnsAfter counted.1 counted.2 call)

def run : Sprite K × Nat → List (Call K) → Except Fault (Sprite K × Nat)
  | counted, [] => .ok counted
  | counted, call :: calls => countedStep size counted call >>= fun counted' => run counted' calls

end Calls

/-! ## What is promised -/

/-- As it is made or loaded, before its state is set. -/
structure Initial (s : Sprite K) : Prop where
  currentFrame : s.currentFrame = 0
  forward : s.forward = true
  frames : ∀ name state, s.animationStates.lookup name = some state → state.frames ≠ []

/-- A frame that is asked for is there. -/
def InRange (s : Sprite K) : Prop :=
  ∀ state, s.currentState = some state → state.frames ≠ [] → s.currentFrame < state.frames.length

/-- The frames of a state that goes there and back have come in turn. -/
def InTurn (s : Sprite K) (turns : Nat) : Prop :=
  ∀ state, s.currentState = some state → state.mode = .pingPong → s.currentFrame = wave state.frames.length turns

structure Kept [FloatLiterals K] (size : String → K × K) (counted : Sprite K × Nat) (calls : List (Call K)) :
    Prop where
  read : run size counted calls ≠ .error .index
  inRange : ∀ s turns, run size counted calls = .ok (s, turns) → InRange s
  inTurn : ∀ s turns, run size counted calls = .ok (s, turns) → InTurn s turns

/-- The lists that are given have frames. -/
def Call.WellFormed : Call K → Prop
  | .addState frames _ _ => frames ≠ []
  | _ => True

/-- The state's list has room for the frame that comes next. Without a texture the program ends
before that frame counts. -/
structure Room (s : Sprite K) (state : AnimationState K) : Prop where
  two : 2 ≤ state.frames.length
  counter : state.mode = .pingPong → s.forward = true → s.texture ≠ none →
    s.currentFrame + 1 < state.frames.length → s.currentFrame + 1 < 2 ^ 32

/-- The condition on a call: the list of the current state is not replaced by one that is too
short, and the timer does not run out over a single frame, except that of a loop that goes
forward. -/
def Meets [FloatLiterals K] (s : Sprite K) : Call K → Prop
  | .addState frames _ stateName => stateName = s.state → s.currentFrame < frames.length
  | .onUpdate dt => due s dt = true → ∀ state, s.currentState = some state →
      state.frames = [] ∨ (state.mode = .loop ∧ s.forward = true) ∨ Room s state
  | _ => True

def MeetsAll [FloatLiterals K] (size : String → K × K) : Sprite K × Nat → List (Call K) → Prop
  | _, [] => True
  | counted, call :: calls =>
    Meets counted.1 call ∧ ∀ counted', countedStep size counted call = .ok counted' → MeetsAll size counted' calls

/-! ## Frames -/

section Frames

variable {s : Sprite K} {state : AnimationState K} {turns : Nat}

theorem succ32_le (n : Nat) : succ32 n ≤ n + 1 := Nat.mod_le _ _

theorem succ32_lt (n : Nat) : succ32 n < 2 ^ 32 := Nat.mod_lt _ (by decide)

theorem pred32_lt (n : Nat) : pred32 n < 2 ^ 32 := Nat.mod_lt _ (by decide)

theorem pred32_of_pos {n : Nat} (hpos : 0 < n) (hfits : n < 2 ^ 32) : pred32 n = n - 1 := by
  rw [pred32]
  omega

theorem lastFrame_of_ne {frames : List (Vector2 K)} (hframes : frames ≠ []) : lastFrame frames = frames.length - 1 := by
  cases frames with
  | nil => exact absurd rfl hframes
  | cons frame rest => rfl

/-- A turn changes the frame and the direction, and nothing else. -/
theorem advance_eq (state : AnimationState K) (s : Sprite K) :
    ∃ currentFrame forward, advance state s = { s with currentFrame, forward } := by
  unfold advance
  split_ifs
  · cases state.mode
    · exact ⟨_, s.forward, rfl⟩
    · exact ⟨_, _, rfl⟩
  · exact ⟨_, s.forward, rfl⟩
  · exact ⟨_, _, rfl⟩
  · exact ⟨_, s.forward, rfl⟩

theorem advance_animationStates (state : AnimationState K) (s : Sprite K) :
    (advance state s).animationStates = s.animationStates := by
  obtain ⟨currentFrame, forward, h⟩ := advance_eq state s
  rw [h]

theorem advance_state (state : AnimationState K) (s : Sprite K) : (advance state s).state = s.state := by
  obtain ⟨currentFrame, forward, h⟩ := advance_eq state s
  rw [h]

theorem advance_texture (state : AnimationState K) (s : Sprite K) : (advance state s).texture = s.texture := by
  obtain ⟨currentFrame, forward, h⟩ := advance_eq state s
  rw [h]

theorem advance_currentState (state : AnimationState K) (s : Sprite K) :
    (advance state s).currentState = s.currentState := by
  rw [Sprite.currentState, advance_animationStates, advance_state]
  rfl

theorem advance_fits (state : AnimationState K) (s : Sprite K) : (advance state s).currentFrame < 2 ^ 32 := by
  unfold advance
  split_ifs
  · cases state.mode
    · exact Nat.two_pow_pos 32
    · exact pred32_lt _
  · exact succ32_lt _
  · exact (by decide : 1 < 2 ^ 32)
  · exact pred32_lt _

/-- The frame stays inside of the list. -/
theorem advance_lt (hfits : s.currentFrame < 2 ^ 32) (hlt : s.currentFrame < state.frames.length)
    (hroom : (state.mode = .loop ∧ s.forward = true) ∨ Room s state) :
    (advance state s).currentFrame < state.frames.length := by
  have hlast : lastFrame state.frames = state.frames.length - 1 :=
    lastFrame_of_ne (List.ne_nil_of_length_pos (Nat.zero_lt_of_lt hlt))
  unfold advance
  rw [hlast]
  split_ifs with hforward hend hfirst
  · cases hmode : state.mode with
    | loop => exact Nat.zero_lt_of_lt hlt
    | pingPong =>
      obtain ⟨hloop, -⟩ | hroom := hroom
      · rw [hmode] at hloop
        cases hloop
      · have htwo := hroom.two
        change pred32 s.currentFrame < _
        rw [pred32_of_pos (by omega) hfits]
        omega
  · have hsucc := succ32_le s.currentFrame
    change succ32 s.currentFrame < _
    omega
  · obtain ⟨-, hloop⟩ | hroom := hroom
    · exact absurd hloop hforward
    · exact hroom.two
  · change pred32 s.currentFrame < _
    rw [pred32_of_pos (Nat.pos_of_ne_zero hfirst) hfits]
    omega

/-- Which way is taken there and back. At the first frame both flags mean the same. -/
def Headed (s : Sprite K) (n turns : Nat) : Prop := phase n turns ≠ 0 → (s.forward = true ↔ phase n turns ≤ n - 1)

theorem wave_of_lt {n : Nat} (hup : phase n turns ≤ n - 1) : wave n turns = phase n turns := by
  rw [wave, period]
  omega

theorem wave_pos {n : Nat} (hn : 2 ≤ n) (hphase : phase n turns ≠ 0) : 0 < wave n turns := by
  have hlt : phase n turns < period n := phase_lt hn
  rw [wave]
  omega

/-- A step up. -/
theorem advance_up (hmode : state.mode = .pingPong) (hroom : Room s state) (htexture : s.texture ≠ none)
    (hframe : s.currentFrame = wave state.frames.length turns)
    (hheaded : Headed s state.frames.length turns)
    (hup : phase state.frames.length turns < state.frames.length - 1) :
    (advance state s).currentFrame = s.currentFrame + 1 ∧ (advance state s).forward = true := by
  have htwo := hroom.two
  have hlast : lastFrame state.frames = state.frames.length - 1 :=
    lastFrame_of_ne (List.ne_nil_of_length_pos (by omega))
  rw [wave_of_lt (Nat.le_of_lt hup)] at hframe
  unfold advance
  rw [hlast]
  split_ifs with hforward hend hfirst
  · omega
  · have hcounter := hroom.counter hmode hforward htexture (by omega)
    exact ⟨Nat.mod_eq_of_lt hcounter, hforward⟩
  · exact ⟨by rw [hfirst], rfl⟩
  · exact absurd ((hheaded (by omega)).mpr (Nat.le_of_lt hup)) hforward

/-- A step down, which begins at the last frame. -/
theorem advance_down (hmode : state.mode = .pingPong) (htwo : 2 ≤ state.frames.length) (hfits : s.currentFrame < 2 ^ 32)
    (hframe : s.currentFrame = wave state.frames.length turns) (hheaded : Headed s state.frames.length turns)
    (hdown : state.frames.length - 1 ≤ phase state.frames.length turns) :
    (advance state s).currentFrame + 1 = s.currentFrame ∧ (advance state s).forward = false := by
  have hphase : phase state.frames.length turns ≠ 0 := by omega
  have hpos : 0 < s.currentFrame := hframe ▸ wave_pos htwo hphase
  have hlast : lastFrame state.frames = state.frames.length - 1 :=
    lastFrame_of_ne (List.ne_nil_of_length_pos (by omega))
  have hpred : pred32 s.currentFrame + 1 = s.currentFrame := by
    rw [pred32_of_pos hpos hfits]
    omega
  unfold advance
  rw [hlast]
  split_ifs with hforward hend hfirst
  · rw [hmode]
    exact ⟨hpred, rfl⟩
  · -- on the way up only the last frame is followed by a lower one
    have hle : phase state.frames.length turns ≤ state.frames.length - 1 := (hheaded hphase).mp hforward
    rw [wave_of_lt hle] at hframe
    omega
  · omega
  · exact ⟨hpred, Bool.eq_false_of_not_eq_true hforward⟩

/-- A turn of a state that goes there and back. -/
theorem advance_pingPong (hmode : state.mode = .pingPong) (hroom : Room s state) (htexture : s.texture ≠ none)
    (hfits : s.currentFrame < 2 ^ 32) (hframe : s.currentFrame = wave state.frames.length turns)
    (hheaded : Headed s state.frames.length turns) :
    (advance state s).currentFrame = wave state.frames.length (turns + 1) ∧
      Headed (advance state s) state.frames.length (turns + 1) := by
  have htwo := hroom.two
  have hlt : phase state.frames.length turns < period state.frames.length := phase_lt htwo
  obtain hup | hdown := Nat.lt_or_ge (phase state.frames.length turns) (state.frames.length - 1)
  · obtain ⟨hcurrent, hforward⟩ := advance_up hmode hroom htexture hframe hheaded hup
    refine ⟨by rw [hcurrent, hframe, wave_succ_of_lt htwo hup], fun hphase => iff_of_true hforward ?_⟩
    rw [phase_succ htwo]
    split <;> omega
  · obtain ⟨hcurrent, hforward⟩ := advance_down hmode htwo hfits hframe hheaded hdown
    refine ⟨?_, fun hphase => iff_of_false (by rw [hforward]; decide) ?_⟩
    · have hwave := wave_succ_of_le htwo hdown
      omega
    · rw [phase_succ htwo] at hphase ⊢
      split at hphase
      · exact absurd rfl hphase
      · rw [if_neg (by assumption)]
        omega

end Frames

/-! ## Calls -/

section Turns

variable {s s' : Sprite K} {turns : Nat}

/-- What holds of a sprite after each call. -/
structure Turning (s : Sprite K) (turns : Nat) : Prop where
  fits : s.currentFrame < 2 ^ 32
  inRange : InRange s
  frames : ∀ name state, s.animationStates.lookup name = some state → state.mode = .pingPong → state.frames ≠ []
  inTurn : InTurn s turns
  headed : ∀ state, s.currentState = some state → state.mode = .pingPong → Headed s state.frames.length turns

theorem Initial.turning (hs : Initial s) : Turning s 0 where
  fits := hs.currentFrame ▸ Nat.two_pow_pos 32
  inRange := fun _ _ hframes => hs.currentFrame ▸ List.length_pos_of_ne_nil hframes
  frames := fun name state hstate _ => hs.frames name state hstate
  inTurn := fun state _ _ => hs.currentFrame.trans (wave_zero state.frames.length).symm
  headed := fun state _ _ hphase => absurd (phase_zero state.frames.length) hphase

theorem Turning.setTimer (hs : Turning s turns) (frameTimer : K) : Turning { s with frameTimer } turns :=
  ⟨hs.fits, hs.inRange, hs.frames, hs.inTurn, hs.headed⟩

theorem turning_addState (hs : Turning s turns) {frames : List (Vector2 K)} {frameDuration : K} {stateName : String}
    (hmeets : stateName = s.state → s.currentFrame < frames.length) :
    Turning (addState frames frameDuration stateName s) turns := by
  have hlookup : ∀ name state, (addState frames frameDuration stateName s).animationStates.lookup name = some state →
      (name = stateName ∧ state = ⟨.loop, frames, frameDuration⟩) ∨ s.animationStates.lookup name = some state := by
    intro name state h
    rw [addState] at h
    by_cases hname : name = stateName
    · subst hname
      rw [Finmap.lookup_insert] at h
      exact .inl ⟨rfl, (Option.some.inj h).symm⟩
    · rw [Finmap.lookup_insert_of_ne _ hname] at h
      exact .inr h
  refine ⟨hs.fits, ?_, ?_, ?_, ?_⟩
  · intro state hstate hframes
    obtain ⟨hname, rfl⟩ | hsame := hlookup s.state state hstate
    · exact hmeets hname.symm
    · exact hs.inRange state hsame hframes
  · intro name state hstate hmode
    obtain ⟨-, rfl⟩ | hsame := hlookup name state hstate
    · cases hmode
    · exact hs.frames name state hsame hmode
  · intro state hstate hmode
    obtain ⟨-, rfl⟩ | hsame := hlookup s.state state hstate
    · cases hmode
    · exact hs.inTurn state hsame hmode
  · intro state hstate hmode
    obtain ⟨-, rfl⟩ | hsame := hlookup s.state state hstate
    · cases hmode
    · exact hs.headed state hsame hmode

theorem turning_setState (hs : Turning s turns) (state : String) (frameTimer : K) :
    Turning { s with state, currentFrame := 0, frameTimer } 0 where
  fits := Nat.two_pow_pos 32
  inRange := fun _ _ hframes => List.length_pos_of_ne_nil hframes
  frames := hs.frames
  inTurn := fun state _ _ => (wave_zero state.frames.length).symm
  headed := fun state _ _ hphase => absurd (phase_zero state.frames.length) hphase

/-- A turn. -/
theorem turning_advance (hs : Turning s turns) {state : AnimationState K} (hstate : s.currentState = some state)
    (htexture : state.frames ≠ [] → s.texture ≠ none)
    (hmeets : state.frames = [] ∨ (state.mode = .loop ∧ s.forward = true) ∨ Room s state) :
    Turning (advance state s) (turns + 1) := by
  have hcurrent : ∀ {state'}, (advance state s).currentState = some state' → state' = state := fun h =>
    Option.some.inj (h.symm.trans ((advance_currentState state s).trans hstate))
  have hpingPong : state.mode = .pingPong → Room s state := by
    intro hmode
    obtain hempty | ⟨hloop, -⟩ | hroom := hmeets
    · exact absurd hempty (hs.frames s.state state hstate hmode)
    · rw [hloop] at hmode
      cases hmode
    · exact hroom
  have hturn := fun hmode => advance_pingPong hmode (hpingPong hmode)
    (htexture (hs.frames s.state state hstate hmode)) hs.fits (hs.inTurn state hstate hmode)
    (hs.headed state hstate hmode)
  refine ⟨advance_fits state s, ?_, ?_, ?_, ?_⟩
  · intro state' hstate' hframes
    obtain rfl := hcurrent hstate'
    exact advance_lt hs.fits (hs.inRange _ hstate hframes) (hmeets.resolve_left hframes)
  · rw [advance_animationStates]
    exact hs.frames
  · intro state' hstate' hmode
    obtain rfl := hcurrent hstate'
    exact (hturn hmode).1
  · intro state' hstate' hmode
    obtain rfl := hcurrent hstate'
    exact (hturn hmode).2

/-- A single frame is left by every turn but that of a loop that goes forward. -/
theorem advance_single {state : AnimationState K} (hlength : state.frames.length = 1) (hframe : s.currentFrame = 0)
    (hloop : ¬ (state.mode = .loop ∧ s.forward = true)) : 1 ≤ (advance state s).currentFrame := by
  have hlast : lastFrame state.frames = 0 := by
    rw [lastFrame_of_ne (List.ne_nil_of_length_pos (by omega)), hlength]
  unfold advance
  rw [hlast]
  split_ifs with hforward
  · cases hmode : state.mode with
    | loop => exact absurd ⟨hmode, hforward⟩ hloop
    | pingPong =>
      change 1 ≤ pred32 s.currentFrame
      rw [hframe]
      decide
  · exact le_refl 1

/-- The counter begins anew before the list ends. -/
theorem advance_overflow (hs : Turning s turns) {state : AnimationState K} (hstate : s.currentState = some state)
    (hmode : state.mode = .pingPong) (hforward : s.forward = true) (hlt : s.currentFrame + 1 < state.frames.length)
    (hfull : 2 ^ 32 ≤ s.currentFrame + 1) :
    (advance state s).currentFrame = 0 ∧ wave state.frames.length (turns + 1) ≠ 0 := by
  have hframe := hs.inTurn state hstate hmode
  have htwo : 2 ≤ state.frames.length := by omega
  have hfits := hs.fits
  have hlast : lastFrame state.frames = state.frames.length - 1 :=
    lastFrame_of_ne (List.ne_nil_of_length_pos (by omega))
  constructor
  · unfold advance
    rw [hlast, if_pos hforward, if_neg (by omega)]
    change succ32 s.currentFrame = 0
    have hcounter : s.currentFrame = 2 ^ 32 - 1 := by omega
    rw [hcounter]
    decide
  · obtain hup | hdown := @wave_succ _ turns htwo <;> omega

end Turns

section Runs

variable [FloatLiterals K] {size : String → K × K} {s s' : Sprite K} {turns : Nat} {call : Call K}

/-- Nothing changes but the corners, and the current state may have been inserted. -/
structure Asked (s s' : Sprite K) : Prop where
  currentFrame : s'.currentFrame = s.currentFrame
  forward : s'.forward = s.forward
  lookup : ∀ name state, s'.animationStates.lookup name = some state →
    s.animationStates.lookup name = some state ∨ state = AnimationState.new
  currentState : ∀ state, s'.currentState = some state → s.currentState = some state ∨ state = AnimationState.new

theorem Asked.turning (h : Asked s s') (hs : Turning s turns) : Turning s' turns where
  fits := h.currentFrame ▸ hs.fits
  inRange := by
    intro state hstate hframes
    obtain hsame | rfl := h.currentState state hstate
    · rw [h.currentFrame]
      exact hs.inRange state hsame hframes
    · exact absurd rfl hframes
  frames := by
    intro name state hstate hmode
    obtain hsame | rfl := h.lookup name state hstate
    · exact hs.frames name state hsame hmode
    · cases hmode
  inTurn := by
    intro state hstate hmode
    obtain hsame | rfl := h.currentState state hstate
    · rw [h.currentFrame]
      exact hs.inTurn state hsame hmode
    · cases hmode
  headed := by
    intro state hstate hmode
    obtain hsame | rfl := h.currentState state hstate
    · rw [Headed, h.forward]
      exact hs.headed state hsame hmode
    · cases hmode

theorem asked_insert (s : Sprite K) :
    Asked s { s with animationStates := s.animationStates.insert s.state AnimationState.new } := by
  have hlookup : ∀ name state, (s.animationStates.insert s.state AnimationState.new).lookup name = some state →
      s.animationStates.lookup name = some state ∨ state = AnimationState.new := by
    intro name state h
    by_cases hname : name = s.state
    · subst hname
      rw [Finmap.lookup_insert] at h
      exact .inr (Option.some.inj h).symm
    · rw [Finmap.lookup_insert_of_ne _ hname] at h
      exact .inl h
  exact ⟨rfl, rfl, hlookup, fun state h => hlookup s.state state h⟩

variable (size) in
/-- Asking for the corners of a frame that is there. -/
theorem getAnimatedUVs_cases (hs : InRange s) : getAnimatedUVs size s = .error .texture ∨
    ∃ uvs s', getAnimatedUVs size s = .ok (uvs, s') ∧ Asked s s' := by
  unfold getAnimatedUVs
  split
  case h_1 => exact .inr ⟨_, _, rfl, asked_insert s⟩
  case h_2 state hstate =>
    have hsame : ∀ uvs, Asked s { s with uvs } := fun uvs => ⟨rfl, rfl, fun _ _ => .inl, fun _ => .inl⟩
    split
    case isTrue => exact .inr ⟨_, _, rfl, hsame s.uvs⟩
    case isFalse hframes =>
      have hlt : s.currentFrame < state.frames.length :=
        hs state hstate fun h => hframes (List.isEmpty_iff.mpr h)
      rw [List.getElem?_eq_getElem hlt]
      cases htexture : s.texture with
      | none => exact .inl rfl
      | some texture => exact .inr ⟨_, _, rfl, hsame _⟩

theorem getAnimatedUVs_of_none {state : AnimationState K} (hstate : s.currentState = some state)
    (hlt : s.currentFrame < state.frames.length) (htexture : s.texture = none) :
    getAnimatedUVs size s = .error .texture := by
  have hframes : state.frames.isEmpty = false :=
    List.isEmpty_eq_false_iff.mpr (List.ne_nil_of_length_pos (Nat.zero_lt_of_lt hlt))
  simp only [getAnimatedUVs, hstate, hframes, Bool.false_eq_true, if_false, List.getElem?_eq_getElem hlt, htexture]

variable (size) in
theorem getAnimatedUVs_of_some {state : AnimationState K} {texture : String} (hstate : s.currentState = some state)
    (hlt : s.currentFrame < state.frames.length) (htexture : s.texture = some texture) :
    ∃ uvs, getAnimatedUVs size s = .ok (uvs, { s with uvs }) := by
  have hframes : state.frames.isEmpty = false :=
    List.isEmpty_eq_false_iff.mpr (List.ne_nil_of_length_pos (Nat.zero_lt_of_lt hlt))
  simp only [getAnimatedUVs, hstate, hframes, Bool.false_eq_true, if_false, List.getElem?_eq_getElem hlt, htexture]
  exact ⟨_, rfl⟩

/-- The corners of a frame that is not there. -/
theorem getAnimatedUVs_of_le {state : AnimationState K} (hstate : s.currentState = some state)
    (hframes : state.frames ≠ []) (hle : state.frames.length ≤ s.currentFrame) :
    getAnimatedUVs size s = .error .index := by
  have hempty : state.frames.isEmpty = false := List.isEmpty_eq_false_iff.mpr hframes
  simp only [getAnimatedUVs, hstate, hempty, Bool.false_eq_true, if_false, List.getElem?_eq_none hle]

variable (size) in
/-- The corners are asked for, and the sprite keeps them or its old ones. -/
theorem getAnimatedUVs_turning (hs : Turning s turns) : getAnimatedUVs size s = .error .texture ∨
    ∃ uvs s', getAnimatedUVs size s = .ok (uvs, s') ∧ Turning s' turns ∧ Turning { s' with uvs } turns := by
  obtain htexture | ⟨uvs, s', h, hasked⟩ := getAnimatedUVs_cases size hs.inRange
  · exact .inl htexture
  · exact .inr ⟨uvs, s', h, hasked.turning hs,
      Asked.turning ⟨hasked.currentFrame, hasked.forward, hasked.lookup, hasked.currentState⟩ hs⟩

variable (size) in
/-- One call. -/
theorem turning_step (hs : Turning s turns) (hmeets : Meets s call) : step size s call = .error .texture ∨
    ∃ s', step size s call = .ok s' ∧ Turning s' (turnsAfter s turns call) := by
  cases call with
  | addState frames frameDuration stateName => exact .inr ⟨_, rfl, turning_addState hs hmeets⟩
  | setState state =>
    rw [step, setState]
    obtain h | ⟨uvs, s', h, -, hs'⟩ := getAnimatedUVs_turning size (turning_setState hs state 0)
    · exact .inl (by rw [h]; rfl)
    · exact .inr ⟨_, by rw [h]; rfl, hs'⟩
  | onUpdate dt =>
    rw [step, onUpdate, turnsAfter]
    cases hstate : s.currentState with
    | none =>
      have hdue : due s dt = false := by rw [due, hstate]
      rw [hdue]
      exact .inr ⟨s, rfl, hs⟩
    | some state =>
      have hdue : due s dt = le state.frameDuration (s.frameTimer + dt) := by rw [due, hstate]
      cases hle : le state.frameDuration (s.frameTimer + dt) with
      | false =>
        refine .inr ⟨{ s with frameTimer := s.frameTimer + dt }, by simp [hle], ?_⟩
        rw [hdue, hle]
        exact hs.setTimer _
      | true =>
        have hmeets' : state.frames = [] ∨ (state.mode = .loop ∧ s.forward = true) ∨
            Room { s with frameTimer := 0 } state :=
          (hmeets (hdue.trans hle) state hstate).imp_right (Or.imp_right fun h => ⟨h.two, h.counter⟩)
        simp only [hdue, hle, if_true]
        by_cases htexture : state.frames ≠ [] ∧ s.texture = none
        · have hlt : (advance state { s with frameTimer := 0 }).currentFrame < state.frames.length :=
            advance_lt hs.fits (hs.inRange state hstate htexture.1) (hmeets'.resolve_left htexture.1)
          have hcurrent := (advance_currentState state { s with frameTimer := 0 }).trans hstate
          have hnone := (advance_texture state { s with frameTimer := 0 }).trans htexture.2
          exact .inl (by rw [getAnimatedUVs_of_none hcurrent hlt hnone]; rfl)
        · have hturn : Turning (advance state { s with frameTimer := 0 }) (turns + 1) :=
            turning_advance (hs.setTimer 0) hstate (fun hframes hnone => htexture ⟨hframes, hnone⟩) hmeets'
          obtain h | ⟨uvs, s', h, hs', -⟩ := getAnimatedUVs_turning size hturn
          · exact .inl (by rw [h]; rfl)
          · exact .inr ⟨s', by rw [h]; rfl, hs'⟩
  | getAnimatedUVs =>
    obtain h | ⟨uvs, s', h, hs', -⟩ := getAnimatedUVs_turning size hs
    · exact .inl (by rw [step, h]; rfl)
    · exact .inr ⟨s', by rw [step, h]; rfl, hs'⟩

/-- What a saved scene is loaded with. -/
theorem setState_toAnimatedSprite (size : String → K × K) (state : String) (s : Sprite K) :
    (setState size state s).toOption.map Sprite.toAnimatedSprite =
      (s.toAnimatedSprite.setState state).toOption := by
  unfold setState getAnimatedUVs Serialisation.AnimatedSprite.setState
  cases hstate : s.animationStates.lookup state with
  | none => simp only [Sprite.currentState, hstate]; rfl
  | some currentState =>
    obtain ⟨mode, frames, frameDuration⟩ := currentState
    simp only [Sprite.currentState, hstate]
    cases frames <;> cases s.texture <;> rfl

/-- What a step may not lead to. -/
def Broken (size : String → K × K) (counted : Sprite K × Nat) (call : Call K) : Prop :=
  countedStep size counted call = .error .index ∨
    ∃ s' turns, countedStep size counted call = .ok (s', turns) ∧ (¬ InRange s' ∨ ¬ InTurn s' turns)

theorem broken_addState (turns : Nat) {frames : List (Vector2 K)} (hframes : frames ≠ []) (frameDuration : K)
    (hle : frames.length ≤ s.currentFrame) : Broken size (s, turns) (.addState frames frameDuration s.state) := by
  refine .inr ⟨_, _, rfl, .inl fun hrange => ?_⟩
  have hlt : s.currentFrame < frames.length :=
    hrange ⟨.loop, frames, frameDuration⟩ (Finmap.lookup_insert s.animationStates) hframes
  omega

theorem countedStep_of_due {state : AnimationState K} {dt : K} (hdue : due s dt = true)
    (hstate : s.currentState = some state) : countedStep size (s, turns) (.onUpdate dt) =
      (getAnimatedUVs size (advance state { s with frameTimer := 0 })).map fun r => (r.2, turns + 1) := by
  have hle : le state.frameDuration (s.frameTimer + dt) = true := by
    rw [due, hstate] at hdue
    exact hdue
  simp only [countedStep, step, onUpdate, turnsAfter, hstate, hle, hdue, if_true]
  cases getAnimatedUVs size (advance state { s with frameTimer := 0 }) <;> rfl

theorem broken_onUpdate (hs : Turning s turns) {state : AnimationState K} {dt : K} (hdue : due s dt = true)
    (hstate : s.currentState = some state) (hframes : state.frames ≠ [])
    (hloop : ¬ (state.mode = .loop ∧ s.forward = true)) (hroom : ¬ Room s state) :
    Broken size (s, turns) (.onUpdate dt) := by
  have hcurrent := (advance_currentState state { s with frameTimer := 0 }).trans hstate
  have hlt := hs.inRange state hstate hframes
  rw [Broken, countedStep_of_due hdue hstate]
  obtain hone | htwo := Nat.lt_or_ge state.frames.length 2
  · have hlength : state.frames.length = 1 := by
      have hpos := List.length_pos_of_ne_nil hframes
      omega
    have hfirst : s.currentFrame = 0 := by omega
    have hleft : 1 ≤ (advance state { s with frameTimer := 0 }).currentFrame :=
      advance_single hlength hfirst hloop
    exact .inl (by rw [getAnimatedUVs_of_le hcurrent hframes (by omega)]; rfl)
  · have hroom' : ¬ (state.mode = .pingPong → s.forward = true → s.texture ≠ none →
        s.currentFrame + 1 < state.frames.length → s.currentFrame + 1 < 2 ^ 32) := fun h => hroom ⟨htwo, h⟩
    simp only [Classical.not_imp, Nat.not_lt] at hroom'
    obtain ⟨hmode, hforward, htexture, hnext, hfull⟩ := hroom'
    obtain ⟨texture, htexture⟩ := Option.ne_none_iff_exists'.mp htexture
    obtain ⟨hzero, hwave⟩ := advance_overflow (hs.setTimer 0) hstate hmode hforward hnext hfull
    obtain ⟨uvs, h⟩ := getAnimatedUVs_of_some size hcurrent (by omega)
      ((advance_texture state { s with frameTimer := 0 }).trans htexture)
    refine .inr ⟨_, _, by rw [h]; rfl, .inr fun hturn => hwave ?_⟩
    rw [← hturn state hcurrent hmode]
    exact hzero

variable (size) in
/-- The condition is no more than what is needed. -/
theorem broken_of_not_meets (hs : Turning s turns) (hcall : call.WellFormed) (hmeets : ¬ Meets s call) :
    Broken size (s, turns) call := by
  cases call with
  | addState frames frameDuration stateName =>
    rw [Meets, Classical.not_imp, Nat.not_lt] at hmeets
    obtain ⟨rfl, hle⟩ := hmeets
    exact broken_addState turns hcall frameDuration hle
  | setState state => exact absurd trivial hmeets
  | getAnimatedUVs => exact absurd trivial hmeets
  | onUpdate dt =>
    simp only [Meets, Classical.not_imp, not_forall, not_or] at hmeets
    obtain ⟨hdue, state, hstate, hframes, hloop, hroom⟩ := hmeets
    exact broken_onUpdate hs hdue hstate hframes hloop hroom

/-! ## Runs -/

theorem run_singleton (counted : Sprite K × Nat) (call : Call K) :
    run size counted [call] = countedStep size counted call := by
  rw [run]
  cases countedStep size counted call <;> rfl

/-- A run of calls that meet the condition. -/
theorem turning_run {counted : Sprite K × Nat} {calls : List (Call K)} (hs : Turning counted.1 counted.2)
    (hmeets : MeetsAll size counted calls) : run size counted calls = .error .texture ∨
      ∃ counted', run size counted calls = .ok counted' ∧ Turning counted'.1 counted'.2 := by
  induction calls generalizing counted with
  | nil => exact .inr ⟨counted, rfl, hs⟩
  | cons call calls ih =>
    obtain hstep | ⟨s', hstep, hs'⟩ := turning_step size hs hmeets.1
    · exact .inl (by rw [run, countedStep, hstep]; rfl)
    · have hcounted : countedStep size counted call = .ok (s', turnsAfter counted.1 counted.2 call) := by
        rw [countedStep, hstep]
        rfl
      rw [run, hcounted]
      exact ih hs' (hmeets.2 _ hcounted)

theorem MeetsAll.of_prefix {counted : Sprite K × Nat} {before calls : List (Call K)} (hinit : before <+: calls)
    (hmeets : MeetsAll size counted calls) : MeetsAll size counted before := by
  induction before generalizing counted calls with
  | nil => trivial
  | cons call before ih =>
    obtain ⟨after, rfl⟩ := hinit
    exact ⟨hmeets.1, fun counted' h => ih ⟨after, rfl⟩ (hmeets.2 counted' h)⟩

theorem kept_of_meets {counted : Sprite K × Nat} {calls : List (Call K)} (hs : Turning counted.1 counted.2)
    (hmeets : MeetsAll size counted calls) : Kept size counted calls := by
  obtain hrun | ⟨counted', hrun, hs'⟩ := turning_run hs hmeets
  · refine ⟨?_, fun s turns => ?_, fun s turns => ?_⟩ <;> rw [hrun] <;> rintro ⟨⟩
  · refine ⟨by rw [hrun]; rintro ⟨⟩, ?_, ?_⟩ <;> rintro s turns h <;> cases hrun.symm.trans h
    · exact hs'.inRange
    · exact hs'.inTurn

theorem meets_of_kept {counted : Sprite K × Nat} {calls : List (Call K)} (hs : Turning counted.1 counted.2)
    (hcalls : ∀ call ∈ calls, call.WellFormed) (hkept : ∀ before, before <+: calls → Kept size counted before) :
    MeetsAll size counted calls := by
  induction calls generalizing counted with
  | nil => trivial
  | cons call calls ih =>
    have hfirst : Kept size counted [call] := hkept [call] ⟨calls, rfl⟩
    have hmeets : Meets counted.1 call := by
      by_contra hmeets
      obtain h | ⟨s', turns, h, hbroken⟩ := broken_of_not_meets size hs (hcalls call (by simp)) hmeets
      · exact hfirst.read ((run_singleton counted call).trans h)
      · have hrun := (run_singleton counted call).trans h
        exact hbroken.elim (fun hn => hn (hfirst.inRange s' turns hrun)) fun hn => hn (hfirst.inTurn s' turns hrun)
    refine ⟨hmeets, fun counted' h => ih ?_ (fun c hc => hcalls c (by simp [hc])) fun before hbefore => ?_⟩
    · obtain hstep | ⟨s', hstep, hs'⟩ := turning_step size hs hmeets
      · rw [countedStep, hstep] at h
        cases h
      · rw [countedStep, hstep] at h
        cases h
        exact hs'
    · have hlonger := hkept (call :: before) ((List.prefix_cons_inj call).mpr hbefore)
      have hrun : run size counted (call :: before) = run size counted' before := by
        rw [run, h]
        rfl
      refine ⟨?_, ?_, ?_⟩ <;> rw [← hrun]
      · exact hlonger.read
      · exact hlonger.inRange
      · exact hlonger.inTurn

/-- After each of the calls the frame is there, and has come in its turn, exactly where every
call meets the condition. -/
theorem kept_iff (size : String → K × K) (hs : Initial s) {calls : List (Call K)}
    (hcalls : ∀ call ∈ calls, call.WellFormed) :
    (∀ before, before <+: calls → Kept size (s, 0) before) ↔ MeetsAll size (s, 0) calls :=
  have hstart : Turning ((s, 0) : Sprite K × Nat).1 ((s, 0) : Sprite K × Nat).2 := hs.turning
  ⟨fun hkept => meets_of_kept hstart hcalls hkept,
    fun hmeets _ hinit => kept_of_meets hstart (hmeets.of_prefix hinit)⟩

end Runs

/-! ## Runs that go wrong -/

section Examples

def texture (_ : String) : ℚ × ℚ := (64, 64)

/-- A sprite with one state, which goes there and back over some frames, one in each unit of time. -/
def walking (frames : List (Vector2 ℚ)) : Sprite ℚ where
  texture := some "walk.png"
  position := ⟨0, 0⟩
  scale := ⟨16, 16⟩
  colour := ⟨1, 1, 1, 1⟩
  animationStates := Finmap.singleton "walk" ⟨.pingPong, frames, 1⟩
  state := "walk"
  currentFrame := 0
  frameTimer := 0
  forward := true
  uvs := []

theorem walking_initial {frames : List (Vector2 ℚ)} (hframes : frames ≠ []) : Initial (walking frames) where
  currentFrame := rfl
  forward := rfl
  frames := by
    intro name state hstate
    by_cases hname : name = "walk"
    · subst hname
      have hlookup := (Finmap.lookup_singleton_eq).symm.trans hstate
      cases hlookup
      exact hframes
    · have hnone : (walking frames).animationStates.lookup name = none :=
        Finmap.lookup_eq_none.mpr fun h => hname (Finmap.mem_singleton name "walk" _ |>.mp h)
      rw [hnone] at hstate
      cases hstate

/-- Two frames, and the second is shown. -/
theorem kept_iff_walking : Kept texture (walking [⟨0, 0⟩, ⟨16, 0⟩], 0) [Call.onUpdate 1] := by
  apply (kept_iff texture (walking_initial (by decide)) (by simp [Call.WellFormed])).mpr _ _ List.prefix_rfl
  refine ⟨?_, fun _ _ => trivial⟩
  intro _ state hstate
  have hcurrent : (walking [⟨0, 0⟩, ⟨16, 0⟩]).currentState = some ⟨.pingPong, [⟨0, 0⟩, ⟨16, 0⟩], 1⟩ :=
    Finmap.lookup_singleton_eq
  cases hcurrent.symm.trans hstate
  exact .inr (.inr ⟨le_refl 2, fun _ _ _ _ => by decide⟩)

/-- Of one frame, the one before it is asked for. -/
theorem walking_not_kept : Initial (walking [⟨0, 0⟩]) ∧ ¬ Kept texture (walking [⟨0, 0⟩], 0) [.onUpdate 1] := by
  refine ⟨walking_initial (by decide), fun h => h.read ?_⟩
  have hcurrent : (walking [⟨0, 0⟩]).currentState = some ⟨.pingPong, [⟨0, 0⟩], 1⟩ := Finmap.lookup_singleton_eq
  have hdue : due (walking [⟨0, 0⟩]) 1 = true := by
    rw [due, hcurrent]
    decide +kernel
  have hnext := (advance_currentState ⟨.pingPong, [⟨0, 0⟩], 1⟩ { walking [⟨0, 0⟩] with frameTimer := 0 }).trans hcurrent
  rw [run_singleton, countedStep_of_due hdue hcurrent, getAnimatedUVs_of_le hnext (by decide) (by decide)]
  rfl

end Examples

end Lumos.Graphics.AnimatedSprite
