import VppPlugins.FlowTable.Buffer
import VppPlugins.Library.Chains
import Mathlib.Data.List.Induction
import Mathlib.Logic.Function.Basic

/-! `hook.h` and `hook.c`: the hook lists, how hooks get into them, and the evaluator
that `hook.c` generates for each hook point. `F` stands for the function pointers, and
`call` for what the functions behind them do to a buffer in the shared state. -/
namespace Vnetfilter
open FlowTable (VnetfilterAction)
open Chains

variable {F B S : Type}

/-- `vnetfilter_hook_process_t`. -/
structure HookProcess (F : Type) where
  priority : UInt32
  function : F
  deriving DecidableEq, Repr

/-- The rows of `foreach_vnetfilter_hook`. -/
inductive HookPoint where
  | l2InputIp4
  | l2InputIp6
  | l2OutputIp4
  | l2OutputIp6
  deriving DecidableEq, Repr

/-- `<hook>_hook_process_list` for each hook point; NULL is the vector without elements. -/
abbrev HookLists (F : Type) := HookPoint → List (HookProcess F)

def HookLists.empty : HookLists F := fun _ => []

/-- `<hook>_hook_register`; `none` is a NULL pointer. -/
def hookRegister (lists : HookLists F) (point : HookPoint) (hook : Option (HookProcess F)) :
    Int × HookLists F :=
  match hook with
  | none => (-1, lists)
  | some hook => (0, Function.update lists point (lists point ++ [hook]))

/-- The loop of `<hook>_hook_process`. The pointer `hook` is set before it and not moved in
it, so `i` only counts. `called` records the calls. -/
def hookProcessLoop (call : F → B → S → VnetfilterAction × S) (hook : HookProcess F) (b : B) :
    Nat → S → List F → Outcome F S VnetfilterAction
  | 0, s, called => ⟨called, s, .accept⟩
  | left + 1, s, called =>
      let (result, s) := call hook.function b s
      let called := called ++ [hook.function]
      if result ≠ .accept then ⟨called, s, result⟩
      else hookProcessLoop call hook b left s called

/-- `<hook>_hook_process`. -/
def hookProcess (call : F → B → S → VnetfilterAction × S) (processList : List (HookProcess F))
    (b : B) (s : S) : Outcome F S VnetfilterAction :=
  match processList with
  | [] => ⟨[], s, .accept⟩
  | hook :: _ => hookProcessLoop call hook b processList.length s []

/-- The hooks that a sequence of calls of the register functions hands over for `point`. -/
def registeredAt (point : HookPoint) (calls : List (HookPoint × Option (HookProcess F))) :
    List (HookProcess F) :=
  calls.filterMap fun c => if c.1 = point then c.2 else none

/-- The lists after a sequence of calls of the register functions. -/
def afterRegistrations (calls : List (HookPoint × Option (HookProcess F))) : HookLists F :=
  calls.foldl (fun lists c => (hookRegister lists c.1 c.2).2) .empty

theorem hookRegister_apply (lists : HookLists F) (at' point : HookPoint)
    (hook : Option (HookProcess F)) :
    (hookRegister lists at' hook).2 point =
      lists point ++ (if at' = point then hook else none).toList := by
  cases hook with
  | none => simp [hookRegister]
  | some hook =>
      by_cases same : at' = point
      · subst same
        simp [hookRegister]
      · simp [hookRegister, same, Function.update_of_ne (Ne.symm same)]

/-- Every hook point holds its hooks in the order in which they were registered. -/
theorem afterRegistrations_apply (calls : List (HookPoint × Option (HookProcess F)))
    (point : HookPoint) : afterRegistrations calls point = registeredAt point calls := by
  induction calls using List.reverseRecOn with
  | nil => rfl
  | append_singleton calls c ih =>
      rw [afterRegistrations, List.foldl_concat, hookRegister_apply]
      change afterRegistrations calls point ++ _ = _
      rw [ih, registeredAt, registeredAt, List.filterMap_append]
      congr 1

/-- What the priorities of the hooks promise about the chain built from them. -/
structure InPriorityOrder (registered chain : List (HookProcess F)) : Prop where
  permutation : chain.Perm registered
  nondecreasing : chain.Pairwise fun a b => a.priority ≤ b.priority
  stable : ∀ p, chain.filter (fun h => h.priority = p) = registered.filter (fun h => h.priority = p)

/-- The chain follows the priorities only where the registrations already did. -/
theorem hooks_in_priority_order_iff (calls : List (HookPoint × Option (HookProcess F)))
    (point : HookPoint) :
    InPriorityOrder (registeredAt point calls) (afterRegistrations calls point) ↔
      (registeredAt point calls).Pairwise fun a b => a.priority ≤ b.priority := by
  rw [afterRegistrations_apply]
  constructor
  · intro order
    exact order.nondecreasing
  · intro nondecreasing
    exact ⟨List.Perm.refl _, nondecreasing, fun _ => rfl⟩

/-- A hook of priority 10 registered before one of priority 5 stays before it. -/
theorem late_hook_runs_late :
    ¬ ∀ (calls : List (HookPoint × Option (HookProcess Nat))) (point : HookPoint),
      InPriorityOrder (registeredAt point calls) (afterRegistrations calls point) := by
  intro claimed
  have order := (claimed [(.l2InputIp4, some ⟨10, 0⟩), (.l2InputIp4, some ⟨5, 1⟩)]
    .l2InputIp4).nondecreasing
  have last : (⟨5, 1⟩ : HookProcess Nat) ∈ [⟨5, 1⟩] := List.mem_singleton.mpr rfl
  exact absurd (List.rel_of_pairwise_cons order last) (by decide)

end Vnetfilter
