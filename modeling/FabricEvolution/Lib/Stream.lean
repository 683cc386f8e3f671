import Mathlib

/-!
# Reading a stream item by item

* `Intake` : what a reader finds at the front of its input; `Stable` : more input never changes what it has found;
* `drain` : the items of an input, and what is left of it or why it was refused;
* `Drained.andThen` : going on with what is left, `drainAll_append` : input that comes later is read later;
* `chunked` : the input read chunk by chunk, `chunked_eq` : which makes no difference.
-/

namespace FabricEvolution.Lib

/-- What stands at the front of an input. -/
inductive Intake (α ι ε : Type*) where
  | item (item : ι) (rest : List α)
  | incomplete
  | refused (error : ε)

/-- The items read, and what is left of the input or why it was refused. -/
abbrev Drained (α ι ε : Type*) := List ι × Except ε (List α)

variable {α ι ε : Type*}

/-- Go on with what is left. -/
def Drained.andThen (drained : Drained α ι ε) (next : List α → Drained α ι ε) : Drained α ι ε :=
  match drained.2 with
  | .error error => (drained.1, .error error)
  | .ok rest => (drained.1 ++ (next rest).1, (next rest).2)

/-- More input does not change what a reader has found, and an item takes some of it. -/
structure Stable (read : List α → Intake α ι ε) : Prop where
  nil : read [] = .incomplete
  item_append : ∀ {input item rest} (more : List α), read input = .item item rest → read (input ++ more) = .item item (rest ++ more)
  refused_append : ∀ {input error} (more : List α), read input = .refused error → read (input ++ more) = .refused error
  shrinks : ∀ {input item rest}, read input = .item item rest → rest.length < input.length

section
variable (read : List α → Intake α ι ε)

/-- The items at the front of an input, as far as the fuel goes. -/
def drain : Nat → List α → Drained α ι ε
  | 0, input => ([], .ok input)
  | fuel + 1, input =>
    match read input with
    | .refused error => ([], .error error)
    | .incomplete => ([], .ok input)
    | .item item rest => (item :: (drain fuel rest).1, (drain fuel rest).2)

def drainAll (input : List α) : Drained α ι ε := drain read input.length input

/-- The input chunk by chunk, with what is left of one before the next. -/
def chunked : List α → List (List α) → Drained α ι ε
  | buffer, [] => ([], .ok buffer)
  | buffer, chunk :: chunks => (drainAll read (buffer ++ chunk)).andThen fun buffer => chunked buffer chunks

end

variable {read : List α → Intake α ι ε}

theorem Drained.andThen_cons (item : ι) (drained : Drained α ι ε) (next : List α → Drained α ι ε) :
    Drained.andThen (item :: drained.1, drained.2) next = (item :: (drained.andThen next).1, (drained.andThen next).2) := by
  obtain ⟨items, _ | rest⟩ := drained <;> rfl

theorem Drained.andThen_congr {drained : Drained α ι ε} {next next' : List α → Drained α ι ε}
    (h : ∀ rest, drained.2 = .ok rest → next rest = next' rest) : drained.andThen next = drained.andThen next' := by
  obtain ⟨items, error | rest⟩ := drained
  · rfl
  · simp only [Drained.andThen, h rest rfl]

theorem drain_incomplete {input : List α} (h : read input = .incomplete) (fuel : Nat) : drain read fuel input = ([], .ok input) := by
  cases fuel with
  | zero => rfl
  | succ fuel => rw [drain, h]

theorem drain_refused {input : List α} {error : ε} (h : read input = .refused error) (fuel : Nat) :
    drain read (fuel + 1) input = ([], .error error) := by
  rw [drain, h]

theorem drain_item {input rest : List α} {item : ι} (h : read input = .item item rest) (fuel : Nat) :
    drain read (fuel + 1) input = (item :: (drain read fuel rest).1, (drain read fuel rest).2) := by
  rw [drain, h]

/-- Fuel beyond the length of the input is not used. -/
theorem drain_fuel (hread : Stable read) {fuel : Nat} {input : List α} (hfuel : input.length ≤ fuel) :
    drain read fuel input = drainAll read input := by
  unfold drainAll
  generalize hlength : input.length = length at hfuel
  induction length using Nat.strongRecOn generalizing fuel input with
  | ind length ih =>
    cases hfront : read input with
    | incomplete => rw [drain_incomplete hfront, drain_incomplete hfront]
    | refused error =>
      cases length with
      | zero =>
        rw [List.length_eq_zero_iff.1 hlength, hread.nil] at hfront
        cases hfront
      | succ length =>
        obtain ⟨fuel, rfl⟩ : ∃ n, fuel = n + 1 := ⟨fuel - 1, by omega⟩
        rw [drain_refused hfront, drain_refused hfront]
    | item item rest =>
      have hshort := hread.shrinks hfront
      obtain ⟨length, rfl⟩ : ∃ n, length = n + 1 := ⟨length - 1, by omega⟩
      obtain ⟨fuel, rfl⟩ : ∃ n, fuel = n + 1 := ⟨fuel - 1, by omega⟩
      have hmore : drain read fuel rest = drain read rest.length rest := ih rest.length (by omega) rfl (by omega)
      have hfewer : drain read length rest = drain read rest.length rest := ih rest.length (by omega) rfl (by omega)
      rw [drain_item hfront, drain_item hfront, hmore, hfewer]

theorem drainAll_item (hread : Stable read) {input rest : List α} {item : ι} (h : read input = .item item rest) :
    drainAll read input = (item :: (drainAll read rest).1, (drainAll read rest).2) := by
  have hshort := hread.shrinks h
  obtain ⟨length, hlength⟩ : ∃ n, input.length = n + 1 := ⟨input.length - 1, by omega⟩
  have hrest : drain read length rest = drainAll read rest := drain_fuel hread (by omega)
  rw [drainAll, hlength, drain_item h, hrest]

theorem drainAll_refused (hread : Stable read) {input : List α} {error : ε} (h : read input = .refused error) :
    drainAll read input = ([], .error error) := by
  cases input with
  | nil =>
    rw [hread.nil] at h
    cases h
  | cons x input => exact drain_refused h _

/-- What is left waits for more. -/
theorem read_of_drainAll (hread : Stable read) {input rest : List α} (h : (drainAll read input).2 = .ok rest) :
    read rest = .incomplete := by
  generalize hlength : input.length = length at h
  induction length using Nat.strongRecOn generalizing input with
  | ind length ih =>
    cases hfront : read input with
    | incomplete =>
      rw [drainAll, drain_incomplete hfront] at h
      cases h
      exact hfront
    | refused error =>
      rw [drainAll_refused hread hfront] at h
      cases h
    | item item left =>
      have hshort := hread.shrinks hfront
      rw [drainAll_item hread hfront] at h
      exact ih left.length (by omega) h rfl

/-- Input that comes later is read later. -/
theorem drainAll_append (hread : Stable read) (input more : List α) :
    drainAll read (input ++ more) = (drainAll read input).andThen fun rest => drainAll read (rest ++ more) := by
  generalize hlength : input.length = length
  induction length using Nat.strongRecOn generalizing input with
  | ind length ih =>
    cases hfront : read input with
    | incomplete =>
      conv_rhs => rw [drainAll, drain_incomplete hfront]
      rfl
    | refused error =>
      rw [drainAll_refused hread hfront, drainAll_refused hread (hread.refused_append more hfront)]
      rfl
    | item item rest =>
      have hshort := hread.shrinks hfront
      rw [drainAll_item hread hfront, drainAll_item hread (hread.item_append more hfront),
        ih rest.length (by omega) rest rfl, Drained.andThen_cons]

/-- However the input is cut into chunks, the same items are read of it, and it ends or is refused in the same way. -/
theorem chunked_eq (hread : Stable read) {buffer : List α} (h : read buffer = .incomplete) (chunks : List (List α)) :
    chunked read buffer chunks = drainAll read (buffer ++ chunks.flatten) := by
  induction chunks generalizing buffer with
  | nil =>
    rw [chunked, List.flatten_nil, List.append_nil, drainAll, drain_incomplete h]
  | cons chunk chunks ih =>
    rw [chunked, List.flatten_cons, ← List.append_assoc, drainAll_append hread (buffer ++ chunk) chunks.flatten]
    exact Drained.andThen_congr fun rest hrest => ih (read_of_drainAll hread hrest)

end FabricEvolution.Lib
