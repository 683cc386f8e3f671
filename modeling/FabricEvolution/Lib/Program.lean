import FabricEvolution.Lib.Run
import Mathlib

/-!
# Effectful programs and machines that run them

* `Prog` : a program as the tree of its effects; every effect is performed with the memory of that moment;
* `Eff` : computations over a memory that may fail, with `get`, `modify`, `throw`, `perform`, `attempt`;
* `Prog.wp` : what must hold before a program so that every effect is due in a state satisfying `mid` and
  every result satisfies the postcondition, whatever others do in between (`env`); `Prog.wp_reaches` : on the way too;
* `Triple`, `Keeps` : the rules of `wp` for computations;
* `Machine` : a system that runs one program at a time beside a world of its own, and may crash;
  `Machine.invariant` : the wp of every command carries an invariant through every run.
-/

namespace FabricEvolution.Lib

/-! ## Programs -/

/-- A program over effects `Op`, answered in `Ans`; an effect carries the memory it is performed with. -/
inductive Prog (σ Op : Type) (Ans : Op → Type) (α : Type) where
  | ret (a : α)
  | op (o : Op) (c : σ) (k : Ans o → Prog σ Op Ans α)

namespace Prog
variable {σ Op : Type} {Ans : Op → Type} {α β : Type}

def bind : Prog σ Op Ans α → (α → Prog σ Op Ans β) → Prog σ Op Ans β
  | ret a, f => f a
  | op o c k, f => op o c fun x => (k x).bind f

end Prog

/-- A computation over the memory `σ` that ends with a value or a failure. -/
def Eff (σ Op : Type) (Ans : Op → Type) (ε α : Type) : Type := σ → Prog σ Op Ans (Except ε α × σ)

namespace Eff
variable {σ Op : Type} {Ans : Op → Type} {ε α β : Type}

instance : Monad (Eff σ Op Ans ε) where
  pure a := fun c => .ret (.ok a, c)
  bind m f := fun c => (m c).bind fun
    | (.ok a, c) => f a c
    | (.error e, c) => .ret (.error e, c)

def get : Eff σ Op Ans ε σ := fun c => .ret (.ok c, c)

def modify (f : σ → σ) : Eff σ Op Ans ε Unit := fun c => .ret (.ok (), f c)

def throw (e : ε) : Eff σ Op Ans ε α := fun c => .ret (.error e, c)

/-- A value or a failure as a computation. -/
def lift (r : Except ε α) : Eff σ Op Ans ε α := fun c => .ret (r, c)

def perform (o : Op) : Eff σ Op Ans ε (Ans o) := fun c => .op o c fun x => .ret (.ok x, c)

/-- Run a computation and go on with its result, failure included. -/
def attempt (m : Eff σ Op Ans ε α) : Eff σ Op Ans ε (Except ε α) := fun c =>
  (m c).bind fun (r, c) => .ret (.ok r, c)

/-- Run a computation only if `p` holds. -/
def whenever (p : Prop) [Decidable p] (m : Eff σ Op Ans ε Unit) : Eff σ Op Ans ε Unit := if p then m else pure ()

end Eff

/-! ## Weakest preconditions -/

/-- How effects meet a world `W`: what others may do before one, what must hold when it is due, and its
outcomes. -/
structure Effects (σ Op : Type) (Ans : Op → Type) (W : Type) where
  env : W → W → Prop
  mid : Op → σ → W → Prop
  exec : (o : Op) → σ → W → Ans o → W → Prop

section Wp
variable {σ Op : Type} {Ans : Op → Type} {W : Type} {ε α β : Type} (E : Effects σ Op Ans W)

def Prog.wp : Prog σ Op Ans α → (α → W → Prop) → W → Prop
  | .ret a, Q, w => Q a w
  | .op o c k, Q, w => ∀ w₀, E.env w w₀ → E.mid o c w₀ ∧ ∀ x w₁, E.exec o c w₀ x w₁ → (k x).wp Q w₁

variable {E}

theorem Prog.wp_mono {p : Prog σ Op Ans α} {Q R : α → W → Prop} (h : ∀ a w, Q a w → R a w) {w : W}
    (hp : p.wp E Q w) : p.wp E R w := by
  induction p generalizing w with
  | ret a => exact h a w hp
  | op o c k ih =>
    intro w₀ henv
    obtain ⟨hmid, hk⟩ := hp w₀ henv
    exact ⟨hmid, fun x w₁ hx => ih x (hk x w₁ hx)⟩

theorem Prog.wp_bind {p : Prog σ Op Ans α} {f : α → Prog σ Op Ans β} {Q : β → W → Prop} {w : W} :
    (p.bind f).wp E Q w ↔ p.wp E (fun a w => (f a).wp E Q w) w := by
  induction p generalizing w with
  | ret a => rfl
  | op o c k ih =>
    constructor
    · intro h w₀ henv
      obtain ⟨hmid, hk⟩ := h w₀ henv
      exact ⟨hmid, fun x w₁ hx => (ih x).mp (hk x w₁ hx)⟩
    · intro h w₀ henv
      obtain ⟨hmid, hk⟩ := h w₀ henv
      exact ⟨hmid, fun x w₁ hx => (ih x).mpr (hk x w₁ hx)⟩

/-- Time passing before a program starts changes nothing. -/
theorem Prog.wp_env (htrans : ∀ a b c, E.env a b → E.env b c → E.env a c) {p : Prog σ Op Ans α}
    {Q : α → W → Prop} (hQ : ∀ a w w', Q a w → E.env w w' → Q a w') {w w' : W} (h : p.wp E Q w)
    (henv : E.env w w') : p.wp E Q w' := by
  cases p with
  | ret a => exact hQ a w w' h henv
  | op o c k => exact fun w₀ h₀ => h w₀ (htrans _ _ _ henv h₀)

/-- What a program ensures beside, whatever must hold when its effects are due. -/
theorem Prog.wp_and {mid : Op → σ → W → Prop} {p : Prog σ Op Ans α} {Q R : α → W → Prop} {w : W} (hp : p.wp E Q w)
    (hbeside : p.wp { E with mid := mid } R w) : p.wp E (fun a w => Q a w ∧ R a w) w := by
  induction p generalizing w with
  | ret a => exact ⟨hp, hbeside⟩
  | op o c k ih =>
    intro w₀ henv
    obtain ⟨hmid, hk⟩ := hp w₀ henv
    exact ⟨hmid, fun x w₁ hx => ih x (hk x w₁ hx) ((hbeside w₀ henv).2 x w₁ hx)⟩

/-- What is left of a program after some of its effects, and the world they leave. -/
inductive Prog.Reaches (exec : (o : Op) → σ → W → Ans o → W → Prop) : Prog σ Op Ans α → W → Prog σ Op Ans α → W → Prop
  | refl (p : Prog σ Op Ans α) (w : W) : Reaches exec p w p w
  | step {o : Op} {c : σ} {k : Ans o → Prog σ Op Ans α} {w w₁ w' : W} {x : Ans o} {p : Prog σ Op Ans α} :
      exec o c w x w₁ → Reaches exec (k x) w₁ p w' → Reaches exec (.op o c k) w p w'

theorem Prog.wp_reaches (henv : ∀ w, E.env w w) {p p' : Prog σ Op Ans α} {Q : α → W → Prop} {w w' : W} (h : p.wp E Q w)
    (hreaches : Prog.Reaches E.exec p w p' w') : p'.wp E Q w' := by
  induction hreaches with
  | refl p w => exact h
  | step hexec _ ih => exact ih ((h _ (henv _)).2 _ _ hexec)

variable (E) in
/-- From a memory and world in `P` the computation ends in `Q`. -/
def Triple (P : σ → W → Prop) (m : Eff σ Op Ans ε α) (Q : Except ε α → σ → W → Prop) : Prop :=
  ∀ c w, P c w → (m c).wp E (fun (r : Except ε α × σ) w => Q r.1 r.2 w) w

variable (E) in
/-- The computation keeps `P`, whether it fails or not. -/
abbrev Keeps (P : σ → W → Prop) (m : Eff σ Op Ans ε α) : Prop := Triple E P m fun _ => P

namespace Triple
variable {P P' : σ → W → Prop} {m : Eff σ Op Ans ε α} {f : α → Eff σ Op Ans ε β} {Q Q' : Except ε α → σ → W → Prop}
  {R : Except ε β → σ → W → Prop}

theorem conseq (h : Triple E P m Q) (hpre : ∀ c w, P' c w → P c w) (hpost : ∀ r c w, Q r c w → Q' r c w) :
    Triple E P' m Q' := by
  intro c w hp
  exact Prog.wp_mono (fun (r : Except ε α × σ) w => hpost r.1 r.2 w) (h c w (hpre c w hp))

theorem pre (h : Triple E P m Q) (hpre : ∀ c w, P' c w → P c w) : Triple E P' m Q :=
  fun c w hp => h c w (hpre c w hp)

theorem post (h : Triple E P m Q) (hpost : ∀ r c w, Q r c w → Q' r c w) : Triple E P m Q' :=
  h.conseq (fun _ _ hp => hp) hpost

theorem and {mid : Op → σ → W → Prop} (h : Triple E P m Q) (hbeside : Triple { E with mid := mid } P' m Q') :
    Triple E (fun c w => P c w ∧ P' c w) m fun r c w => Q r c w ∧ Q' r c w :=
  fun c w hp => Prog.wp_and (h c w hp.1) (hbeside c w hp.2)

theorem pure {a : α} (h : ∀ c w, P c w → Q (.ok a) c w) : Triple E P (Pure.pure a) Q := fun c w hp => h c w hp

theorem throw {e : ε} (h : ∀ c w, P c w → Q (.error e) c w) : Triple E P (Eff.throw e) Q := fun c w hp => h c w hp

theorem lift {r : Except ε α} (h : ∀ c w, P c w → Q r c w) : Triple E P (Eff.lift r) Q := fun c w hp => h c w hp

theorem modify {g : σ → σ} {Q : Except ε Unit → σ → W → Prop} (h : ∀ c w, P c w → Q (.ok ()) (g c) w) :
    Triple E P (Eff.modify g) Q := fun c w hp => h c w hp

/-- The assertion between two computations: `S` after a value, the postcondition after a failure. -/
def between (S : α → σ → W → Prop) (R : Except ε β → σ → W → Prop) : Except ε α → σ → W → Prop
  | .ok a => S a
  | .error e => R (.error e)

/-- The rule of sequencing. -/
theorem seq {S : α → σ → W → Prop} (hm : Triple E P m (between S R)) (hf : ∀ a, Triple E (S a) (f a) R) :
    Triple E P (m >>= f) R := by
  intro c w hp
  refine Prog.wp_bind.mpr (Prog.wp_mono ?_ (hm c w hp))
  rintro ⟨e | a, c'⟩ w' h
  · exact h
  · exact hf a c' w' h

/-- A postcondition for a value and one for a failure, whatever the failure. -/
def ends (S : α → σ → W → Prop) (R : σ → W → Prop) : Except ε α → σ → W → Prop
  | .ok a => S a
  | .error _ => R

/-- Sequencing of computations that fail alike. -/
theorem bind {S : α → σ → W → Prop} {T : β → σ → W → Prop} {R : σ → W → Prop} (hm : Triple E P m (ends S R))
    (hf : ∀ a, Triple E (S a) (f a) (ends T R)) : Triple E P (m >>= f) (ends T R) := by
  refine seq (S := S) (hm.post ?_) hf
  rintro (e | a) c w h <;> exact h

/-- Reading the memory names it. -/
theorem get {f : σ → Eff σ Op Ans ε β} (h : ∀ c₀, Triple E (fun c w => c = c₀ ∧ P c w) (f c₀) R) :
    Triple E P (Eff.get >>= f) R := fun c w hp => h c c w ⟨rfl, hp⟩

theorem attempt {Q : Except ε (Except ε α) → σ → W → Prop} (h : Triple E P m fun r => Q (.ok r)) :
    Triple E P (Eff.attempt m) Q := by
  intro c w hp
  exact Prog.wp_bind.mpr (Prog.wp_mono (fun r w hr => hr) (h c w hp))

theorem perform {o : Op} {Q : Except ε (Ans o) → σ → W → Prop}
    (h : ∀ c w, P c w → ∀ w₀, E.env w w₀ → E.mid o c w₀ ∧ ∀ x w₁, E.exec o c w₀ x w₁ → Q (.ok x) c w₁) :
    Triple E P (Eff.perform o) Q := fun c w hp => h c w hp

end Triple

namespace Keeps
variable {P : σ → W → Prop} {m : Eff σ Op Ans ε α} {f : α → Eff σ Op Ans ε β}

theorem pure (a : α) : Keeps E P (ε := ε) (Pure.pure a : Eff σ Op Ans ε α) := fun _ _ h => h

theorem throw (e : ε) : Keeps E P (Eff.throw e : Eff σ Op Ans ε α) := fun _ _ h => h

theorem lift (r : Except ε α) : Keeps E P (Eff.lift r : Eff σ Op Ans ε α) := fun _ _ h => h

theorem modify {g : σ → σ} (h : ∀ c w, P c w → P (g c) w) : Keeps E P (Eff.modify g : Eff σ Op Ans ε Unit) := h

theorem bind (hm : Keeps E P m) (hf : ∀ a, Keeps E P (f a)) : Keeps E P (m >>= f) := by
  refine Triple.seq (hm.post ?_) hf
  rintro (e | a) c w h <;> exact h

theorem attempt (hm : Keeps E P m) : Keeps E P (Eff.attempt m) := Triple.attempt hm

theorem between {R : Except ε β → σ → W → Prop} (hm : Keeps E P m) (hback : ∀ e c w, P c w → R (.error e) c w) :
    Triple E P m (Triple.between (fun _ => P) R) := by
  refine hm.post ?_
  rintro (e | a) c w h
  · exact hback e c w h
  · exact h

/-- Sequencing after a computation that keeps `P`. -/
theorem seq {R : Except ε β → σ → W → Prop} (hm : Keeps E P m) (hback : ∀ e c w, P c w → R (.error e) c w)
    (hf : ∀ a, Triple E P (f a) R) : Triple E P (m >>= f) R := Triple.seq (hm.between hback) hf

/-- What every effect keeps of the world alone is kept by every computation. -/
theorem of_world {I : W → Prop} (h : ∀ o c w, I w → ∀ w₀, E.env w w₀ → E.mid o c w₀ ∧ ∀ x w₁, E.exec o c w₀ x w₁ → I w₁)
    (m : Eff σ Op Ans ε α) : Keeps E (fun _ w => I w) m := by
  intro c w hi
  generalize m c = p
  induction p generalizing w with
  | ret a => exact hi
  | op o c k ih =>
    intro w₀ henv
    obtain ⟨hmid, hexec⟩ := h o c w hi w₀ henv
    exact ⟨hmid, fun x w₁ hx => ih x w₁ (hexec x w₁ hx)⟩

end Keeps

end Wp

/-! ## Machines -/

/-- A machine: commands run as programs, their effects meet the world under a choice of the environment,
the world moves on its own, and a crashed machine boots from the world. -/
structure Machine (σ Op : Type) (Ans : Op → Type) (W ε Cmd Choice Ext Boot : Type) where
  command : Cmd → Eff σ Op Ans ε Unit
  exec : (o : Op) → σ → Choice → W → Option (Ans o × W)
  world : Ext → W → Option W
  boot : Boot → W → Option (σ × W)

inductive Config (σ Op : Type) (Ans : Op → Type) (W ε : Type) where
  | idle (c : σ) (w : W)
  | running (p : Prog σ Op Ans (Except ε Unit × σ)) (w : W)
  | down (w : W)

inductive Event (Cmd Choice Ext Boot : Type) where
  | begin (cmd : Cmd)
  /-- The effect that is due meets the world. -/
  | exec (choice : Choice)
  | finish
  | world (e : Ext)
  | crash
  | boot (b : Boot)

/-- The events a run is restricted to. -/
structure Policy (σ Op W Cmd Choice Ext : Type) where
  command : Cmd → σ → W → Prop := fun _ _ _ => True
  exec : Op → σ → Choice → W → Prop := fun _ _ _ _ => True
  world : Ext → W → Prop := fun _ _ => True
  crash : σ → W → Prop := fun _ _ => True

section Machine
variable {σ Op : Type} {Ans : Op → Type} {W ε Cmd Choice Ext Boot : Type}

def Config.world : Config σ Op Ans W ε → W
  | idle _ w => w
  | running _ w => w
  | down w => w

def Config.withWorld : Config σ Op Ans W ε → W → Config σ Op Ans W ε
  | idle c _, w => idle c w
  | running p _, w => running p w
  | down _, w => down w

/-- The memory of a machine that is up. -/
def Config.memory : Config σ Op Ans W ε → Option σ
  | idle c _ => some c
  | running (.op _ c _) _ => some c
  | running (.ret r) _ => some r.2
  | down _ => none

/-- The effect that is due. -/
def Config.due : Config σ Op Ans W ε → Option Op
  | running (.op o _ _) _ => some o
  | _ => none

namespace Machine
variable (M : Machine σ Op Ans W ε Cmd Choice Ext Boot)

def after (s : Config σ Op Ans W ε) : Event Cmd Choice Ext Boot → Option (Config σ Op Ans W ε)
  | .begin cmd =>
    match s with
    | .idle c w => some (.running (M.command cmd c) w)
    | _ => none
  | .exec choice =>
    match s with
    | .running (.op o c k) w => (M.exec o c choice w).map fun r => .running (k r.1) r.2
    | _ => none
  | .finish =>
    match s with
    | .running (.ret r) w => some (.idle r.2 w)
    | _ => none
  | .world e => (M.world e s.world).map s.withWorld
  | .crash =>
    match s with
    | .down _ => none
    | s => some (.down s.world)
  | .boot b =>
    match s with
    | .down w => (M.boot b w).map fun r => .idle r.1 r.2
    | _ => none

/-- Whether `policy` admits an event. -/
def allows (policy : Policy σ Op W Cmd Choice Ext) (s : Config σ Op Ans W ε) : Event Cmd Choice Ext Boot → Prop
  | .begin cmd =>
    match s with
    | .idle c w => policy.command cmd c w
    | _ => True
  | .exec choice =>
    match s with
    | .running (.op o c _) w => policy.exec o c choice w
    | _ => True
  | .world e => policy.world e s.world
  | .crash => ∀ c, s.memory = some c → policy.crash c s.world
  | .finish | .boot _ => True

/-- The steps that `policy` admits. -/
def step (policy : Policy σ Op W Cmd Choice Ext) (s : Config σ Op Ans W ε) (e : Event Cmd Choice Ext Boot)
    (t : Config σ Op Ans W ε) : Prop :=
  allows policy s e ∧ M.after s e = some t

/-- Several events in a row, as long as they pass a check. -/
def follow (ok : Config σ Op Ans W ε → Event Cmd Choice Ext Boot → Bool) (s : Config σ Op Ans W ε) :
    List (Event Cmd Choice Ext Boot) → Option (Config σ Op Ans W ε)
  | [] => some s
  | e :: es => if ok s e then (M.after s e).bind fun t => follow ok t es else none

/-- How the effects of the machine meet the world under a policy. -/
def effects (policy : Policy σ Op W Cmd Choice Ext) (mid : Op → σ → W → Prop) : Effects σ Op Ans W where
  env := Relation.ReflTransGen fun w w' => ∃ e, policy.world e w ∧ M.world e w = some w'
  mid := mid
  exec o c w x w' := ∃ choice, policy.exec o c choice w ∧ M.exec o c choice w = some (x, w')

variable {M} {policy : Policy σ Op W Cmd Choice Ext} {mid : Op → σ → W → Prop} {J : σ → W → Prop} {D : W → Prop}

/-- What a step of the world keeps is kept as long as the world moves on its own. -/
theorem env_keeps {I : W → Prop} (h : ∀ e w w', policy.world e w → M.world e w = some w' → I w → I w') {w w' : W}
    (henv : (M.effects policy mid).env w w') (hi : I w) : I w' := by
  induction henv with
  | refl => exact hi
  | tail _ hstep ih =>
    obtain ⟨e, hpolicy, hworld⟩ := hstep
    exact h e _ _ hpolicy hworld ih

variable (M) in
/-- The conditions under which `J` holds whenever the machine is idle, `D` whenever it is down and `mid`
whenever an effect is due. -/
structure Sound (policy : Policy σ Op W Cmd Choice Ext) (mid : Op → σ → W → Prop) (J : σ → W → Prop)
    (D : W → Prop) : Prop where
  command : ∀ cmd, Triple (M.effects policy mid) (fun c w => J c w ∧ policy.command cmd c w) (M.command cmd) fun _ => J
  world : ∀ e w w', policy.world e w → M.world e w = some w' → (∀ c, J c w → J c w') ∧ (D w → D w')
  crash : ∀ c w, policy.crash c w → (J c w → D w) ∧ ∀ o, mid o c w → D w
  boot : ∀ b w c w', D w → M.boot b w = some (c, w') → J c w'

variable (M policy mid J D) in
/-- The invariant of a configuration. -/
def Holds : Config σ Op Ans W ε → Prop
  | .idle c w => J c w
  | .running p w => p.wp (M.effects policy mid) (fun r w => J r.2 w) w
  | .down w => D w

theorem Sound.world_holds (h : M.Sound policy mid J D) {s : Config σ Op Ans W ε} {e : Ext} {w' : W}
    (hs : M.Holds policy mid J D s) (hpolicy : policy.world e s.world) (hw : M.world e s.world = some w') :
    M.Holds policy mid J D (s.withWorld w') := by
  cases s with
  | idle c w => exact (h.world e w w' hpolicy hw).1 c hs
  | running p w =>
    have henv : ∀ (r : Except ε Unit × σ) w w', J r.2 w → (M.effects policy mid).env w w' → J r.2 w' :=
      fun r w w' hj he => env_keeps (fun e w w' hp hw => (h.world e w w' hp hw).1 r.2) he hj
    exact Prog.wp_env (fun _ _ _ => Relation.ReflTransGen.trans) henv hs (.single ⟨e, hpolicy, hw⟩)
  | down w => exact (h.world e w w' hpolicy hw).2 hs

theorem Sound.step_holds (h : M.Sound policy mid J D) {s t : Config σ Op Ans W ε} {e : Event Cmd Choice Ext Boot}
    (hs : M.Holds policy mid J D s) (hstep : M.step policy s e t) : M.Holds policy mid J D t := by
  obtain ⟨hpolicy, hafter⟩ := hstep
  cases e with
  | world e =>
    obtain ⟨w', hw, rfl⟩ := Option.map_eq_some_iff.mp hafter
    exact h.world_holds hs hpolicy hw
  | begin cmd =>
    cases s with
    | idle c w =>
      cases hafter
      exact h.command cmd c w ⟨hs, hpolicy⟩
    | _ => cases hafter
  | exec choice =>
    match s with
    | .running (.op o c k) w =>
      obtain ⟨⟨x, w'⟩, hexec, rfl⟩ := Option.map_eq_some_iff.mp hafter
      exact (hs w .refl).2 x w' ⟨choice, hpolicy, hexec⟩
    | .running (.ret _) _ | .idle _ _ | .down _ => cases hafter
  | finish =>
    match s with
    | .running (.ret r) w =>
      cases hafter
      exact hs
    | .running (.op _ _ _) _ | .idle _ _ | .down _ => cases hafter
  | crash =>
    match s with
    | .idle c w =>
      cases hafter
      exact (h.crash c w (hpolicy c rfl)).1 hs
    | .running (.ret r) w =>
      cases hafter
      exact (h.crash r.2 w (hpolicy r.2 rfl)).1 hs
    | .running (.op o c k) w =>
      cases hafter
      exact (h.crash c w (hpolicy c rfl)).2 o (hs w .refl).1
    | .down _ => cases hafter
  | boot b =>
    cases s with
    | down w =>
      obtain ⟨⟨c, w'⟩, hb, rfl⟩ := Option.map_eq_some_iff.mp hafter
      exact h.boot b w c w' hs hb
    | _ => cases hafter

/-- The invariant along every run. -/
theorem Sound.run_holds (h : M.Sound policy mid J D) {s t : Config σ Op Ans W ε}
    {es : List (Event Cmd Choice Ext Boot)} (hrun : Run (M.step policy) s es t) (hs : M.Holds policy mid J D s) :
    M.Holds policy mid J D t :=
  hrun.invariant (M.Holds policy mid J D) (fun _ _ _ hi hstep => h.step_holds hi hstep) hs

/-- What the invariant says of the memory of a machine that is up. -/
theorem Holds.memory {I : σ → W → Prop} {s : Config σ Op Ans W ε} {c : σ} (hs : M.Holds policy mid J D s)
    (hJ : ∀ c w, J c w → I c w) (hmid : ∀ o c w, mid o c w → I c w) (hc : s.memory = some c) : I c s.world := by
  match s with
  | .idle c w =>
    cases hc
    exact hJ c w hs
  | .running (.ret r) w =>
    cases hc
    exact hJ r.2 w hs
  | .running (.op o c k) w =>
    cases hc
    exact hmid o c w (hs w .refl).1
  | .down w => cases hc

/-- What must hold when an effect is due does. -/
theorem Holds.due {o : Op} {c : σ} {k : Ans o → Prog σ Op Ans (Except ε Unit × σ)} {w : W}
    (hs : M.Holds policy mid J D (.running (.op o c k) w)) : mid o c w := (hs w .refl).1

/-- The events in the course of one command. -/
def isInner : Event Cmd Choice Ext Boot → Bool
  | .exec _ | .world _ => true
  | _ => false

section Course
variable {Q : Except ε Unit × σ → W → Prop} {p : Prog σ Op Ans (Except ε Unit × σ)} {w : W}

theorem wp_of_step (hQ : ∀ r w w', Q r w → (M.effects policy mid).env w w' → Q r w')
    {e : Event Cmd Choice Ext Boot} {t : Config σ Op Ans W ε} (hstep : M.step policy (.running p w) e t)
    (he : isInner e = true) (hp : p.wp (M.effects policy mid) Q w) :
    ∃ p' w', t = .running p' w' ∧ p'.wp (M.effects policy mid) Q w' := by
  obtain ⟨hpolicy, hafter⟩ := hstep
  cases e with
  | exec choice =>
    cases p with
    | ret r => cases hafter
    | op o c k =>
      obtain ⟨⟨x, w'⟩, hexec, rfl⟩ := Option.map_eq_some_iff.mp hafter
      exact ⟨k x, w', rfl, (hp w .refl).2 x w' ⟨choice, hpolicy, hexec⟩⟩
  | world e =>
    obtain ⟨w', hw, rfl⟩ := Option.map_eq_some_iff.mp hafter
    exact ⟨p, w', rfl, Prog.wp_env (fun _ _ _ => Relation.ReflTransGen.trans) hQ hp (.single ⟨e, hpolicy, hw⟩)⟩
  | begin cmd | finish | crash | boot b => cases he

/-- In the course of a command its weakest precondition stays true. -/
theorem wp_of_run (hQ : ∀ r w w', Q r w → (M.effects policy mid).env w w' → Q r w')
    {es : List (Event Cmd Choice Ext Boot)} {t : Config σ Op Ans W ε} (hrun : Run (M.step policy) (.running p w) es t)
    (hes : ∀ e ∈ es, isInner e = true) (hp : p.wp (M.effects policy mid) Q w) :
    ∃ p' w', t = .running p' w' ∧ p'.wp (M.effects policy mid) Q w' := by
  generalize hs : Config.running p w = s at hrun
  induction hrun generalizing p w with
  | nil => exact ⟨p, w, hs.symm, hp⟩
  | cons hstep _ ih =>
    subst hs
    obtain ⟨p', w', rfl, hp'⟩ := wp_of_step hQ hstep (hes _ List.mem_cons_self) hp
    exact ih (fun e he => hes e (List.mem_cons_of_mem _ he)) hp' rfl

end Course

/-- Events whose check decides their admission make up a run. -/
theorem run_follow {ok : Config σ Op Ans W ε → Event Cmd Choice Ext Boot → Bool}
    (hok : ∀ s e, ok s e = true → allows policy s e) {s t : Config σ Op Ans W ε}
    {es : List (Event Cmd Choice Ext Boot)} (h : M.follow ok s es = some t) : Run (M.step policy) s es t := by
  induction es generalizing s with
  | nil =>
    cases h
    exact .nil _
  | cons e es ih =>
    unfold follow at h
    split at h
    · rename_i hpass
      obtain ⟨u, hu, hrest⟩ := Option.bind_eq_some_iff.mp h
      exact .cons ⟨hok s e hpass, hu⟩ (ih hrest)
    · cases h

/-- The policy that admits everything. -/
theorem allows_free (s : Config σ Op Ans W ε) (e : Event Cmd Choice Ext Boot) : allows {} s e := by
  cases e <;> cases s <;> simp only [allows] <;> first | trivial | exact fun _ _ => trivial | split <;> trivial

variable (M) in
/-- A run of events that pass a check, to a state satisfying `p`. -/
theorem exists_run {ok : Config σ Op Ans W ε → Event Cmd Choice Ext Boot → Bool}
    (hok : ∀ s e, ok s e = true → allows policy s e) (s : Config σ Op Ans W ε) (es : List (Event Cmd Choice Ext Boot))
    (p : Config σ Op Ans W ε → Bool) (h : (M.follow ok s es).any p = true) :
    ∃ t, Run (M.step policy) s es t ∧ p t = true := by
  obtain ⟨t, ht, hp⟩ := (Option.any_eq_true _ _).mp h
  exact ⟨t, run_follow hok ht, hp⟩

variable (M) in
theorem exists_free_run (s : Config σ Op Ans W ε) (es : List (Event Cmd Choice Ext Boot))
    (p : Config σ Op Ans W ε → Bool) (h : (M.follow (fun _ _ => true) s es).any p = true) :
    ∃ t, Run (M.step {}) s es t ∧ p t = true :=
  M.exists_run (fun s e _ => allows_free s e) s es p h

/-! ## History -/

variable {G : Type}

/-- The machine with a record of its effects beside the world; nothing reads the record. -/
def record (M : Machine σ Op Ans W ε Cmd Choice Ext Boot) (note : (o : Op) → σ → Choice → W → Ans o → G → G) :
    Machine σ Op Ans (W × G) ε Cmd Choice Ext Boot where
  command := M.command
  exec o c choice w := (M.exec o c choice w.1).map fun r => (r.1, r.2, note o c choice w.1 r.1 w.2)
  world e w := (M.world e w.1).map fun w' => (w', w.2)
  boot b w := (M.boot b w.1).map fun r => (r.1, r.2, w.2)

variable {note : (o : Op) → σ → Choice → W → Ans o → G → G}

theorem record_exec {o : Op} {c : σ} {choice : Choice} {w w' : W × G} {x : Ans o} :
    (M.record note).exec o c choice w = some (x, w') ↔
      M.exec o c choice w.1 = some (x, w'.1) ∧ w'.2 = note o c choice w.1 x w.2 := by
  obtain ⟨w', g'⟩ := w'
  simp only [record, Option.map_eq_some_iff, Prod.mk.injEq]
  constructor
  · rintro ⟨⟨x, w'⟩, hexec, rfl, rfl, rfl⟩
    exact ⟨hexec, rfl⟩
  · rintro ⟨hexec, rfl⟩
    exact ⟨⟨x, w'⟩, hexec, rfl, rfl, rfl⟩

theorem record_world {e : Ext} {w w' : W × G} :
    (M.record note).world e w = some w' ↔ M.world e w.1 = some w'.1 ∧ w'.2 = w.2 := by
  obtain ⟨w', g'⟩ := w'
  simp only [record, Option.map_eq_some_iff, Prod.mk.injEq]
  constructor
  · rintro ⟨w', hworld, rfl, rfl⟩
    exact ⟨hworld, rfl⟩
  · rintro ⟨hworld, rfl⟩
    exact ⟨w', hworld, rfl, rfl⟩

theorem record_boot {b : Boot} {w w' : W × G} {c : σ} :
    (M.record note).boot b w = some (c, w') ↔ M.boot b w.1 = some (c, w'.1) ∧ w'.2 = w.2 := by
  obtain ⟨w', g'⟩ := w'
  simp only [record, Option.map_eq_some_iff, Prod.mk.injEq]
  constructor
  · rintro ⟨⟨c, w'⟩, hboot, rfl, rfl, rfl⟩
    exact ⟨hboot, rfl⟩
  · rintro ⟨hboot, rfl⟩
    exact ⟨⟨c, w'⟩, hboot, rfl, rfl, rfl⟩

end Machine

end Machine

end FabricEvolution.Lib
