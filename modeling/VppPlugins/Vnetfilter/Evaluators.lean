import VppPlugins.Vnetfilter.Node

/-! The evaluator of `hook.c` beside the one of `node.c`. Both are chains in the sense of
`Chains`: the node's over the hooks, the generated one over the first hook repeated. -/
namespace Vnetfilter
open FlowTable (VnetfilterAction)
open Chains

variable {F B S : Type}

/-- What the hooks do to one buffer. -/
def onBuffer (call : F → B → S → VnetfilterAction × S) (b : B) (f : F) (s : S) :
    VnetfilterAction × S := call f b s

def functions (processList : List (HookProcess F)) : List F :=
  processList.map HookProcess.function

/-- Calls made before a chain starts stand before its own. -/
def precededBy (called : List F) (o : Outcome F S VnetfilterAction) :
    Outcome F S VnetfilterAction := { o with called := called ++ o.called }

theorem precededBy_after (called : List F) (f : F) (o : Outcome F S VnetfilterAction) :
    precededBy (called ++ [f]) o = precededBy called (o.after f) := by
  simp only [precededBy, Outcome.after, List.append_assoc, List.singleton_append]

theorem hookChainLoop_cons (call : F → B → S → VnetfilterAction × S) (b : B)
    (process : HookProcess F) (rest : List (HookProcess F)) (s : S) (called : List F) :
    hookChainLoop call b (process :: rest) s called =
      if (onBuffer call b process.function s).1 = .accept then
        hookChainLoop call b rest (onBuffer call b process.function s).2
          (called ++ [process.function])
      else ⟨called ++ [process.function], (onBuffer call b process.function s).2,
        (onBuffer call b process.function s).1⟩ := ite_not ..

theorem hookProcessLoop_succ (call : F → B → S → VnetfilterAction × S) (hook : HookProcess F)
    (b : B) (left : Nat) (s : S) (called : List F) :
    hookProcessLoop call hook b (left + 1) s called =
      if (onBuffer call b hook.function s).1 = .accept then
        hookProcessLoop call hook b left (onBuffer call b hook.function s).2
          (called ++ [hook.function])
      else ⟨called ++ [hook.function], (onBuffer call b hook.function s).2,
        (onBuffer call b hook.function s).1⟩ := ite_not ..

theorem hookChainLoop_eq (call : F → B → S → VnetfilterAction × S) (b : B)
    (processList : List (HookProcess F)) (s : S) (called : List F) :
    hookChainLoop call b processList s called =
      precededBy called (runChain (onBuffer call b) .accept (functions processList) s) := by
  induction processList generalizing s called with
  | nil => simp only [hookChainLoop, functions, List.map_nil, runChain, precededBy, List.append_nil]
  | cons process rest ih =>
      rw [hookChainLoop_cons, functions, List.map_cons]
      by_cases goes : (onBuffer call b process.function s).1 = .accept
      · rw [runChain_go goes, if_pos goes, ih, precededBy_after, functions]
      · rw [runChain_stop goes, if_neg goes, precededBy]

/-- The node runs the chain of the registered functions. -/
theorem hookChain_eq (call : F → B → S → VnetfilterAction × S)
    (processList : List (HookProcess F)) (b : B) (s : S) :
    hookChain call processList b s =
      runChain (onBuffer call b) .accept (functions processList) s := by
  rw [hookChain, hookChainLoop_eq, precededBy]
  rfl

theorem hookProcessLoop_eq (call : F → B → S → VnetfilterAction × S) (hook : HookProcess F)
    (b : B) (left : Nat) (s : S) (called : List F) :
    hookProcessLoop call hook b left s called =
      precededBy called
        (runChain (onBuffer call b) .accept (List.replicate left hook.function) s) := by
  induction left generalizing s called with
  | zero => simp only [hookProcessLoop, List.replicate_zero, runChain, precededBy, List.append_nil]
  | succ left ih =>
      rw [hookProcessLoop_succ, List.replicate_succ]
      by_cases goes : (onBuffer call b hook.function s).1 = .accept
      · rw [runChain_go goes, if_pos goes, ih, precededBy_after]
      · rw [runChain_stop goes, if_neg goes, precededBy]

/-- `<hook>_hook_process` runs a chain of as many calls of the first function. -/
theorem hookProcess_cons (call : F → B → S → VnetfilterAction × S) (hook : HookProcess F)
    (rest : List (HookProcess F)) (b : B) (s : S) :
    hookProcess call (hook :: rest) b s =
      runChain (onBuffer call b) .accept
        (List.replicate (functions (hook :: rest)).length hook.function) s := by
  rw [hookProcess, hookProcessLoop_eq, functions, List.length_map, precededBy]
  rfl

/-- Both evaluators call the same functions in the same order, end in the same state and
decide for the first answer other than `VNF_ACCEPT`. -/
structure EvaluatorsAgree (call : F → B → S → VnetfilterAction × S)
    (processList : List (HookProcess F)) (b : B) (s : S) : Prop where
  called : (hookProcess call processList b s).called = (hookChain call processList b s).called
  state : (hookProcess call processList b s).state = (hookChain call processList b s).state
  action : (hookProcess call processList b s).decision = (hookChain call processList b s).decision
  first : (hookProcess call processList b s).decision =
    ((answers (onBuffer call b) (functions processList) s).find?
      (fun a => decide (a ≠ .accept))).getD .accept

/-- Every hook the chain gets to is the function of the first hook: up to and with the first
one that does not accept. -/
def FirstOnly (call : F → B → S → VnetfilterAction × S) (processList : List (HookProcess F))
    (b : B) (s : S) : Prop :=
  ∀ hook ∈ processList.head?,
    AsksOnly (onBuffer call b) .accept hook.function (functions processList) s

theorem evaluators_agree_iff (call : F → B → S → VnetfilterAction × S)
    (processList : List (HookProcess F)) (b : B) (s : S) :
    EvaluatorsAgree call processList b s ↔ FirstOnly call processList b s := by
  cases processList with
  | nil =>
      constructor
      · intro _ hook member
        cases member
      · intro _
        exact ⟨rfl, rfl, rfl, rfl⟩
  | cons hook rest =>
      have generated := hookProcess_cons call hook rest b s
      have node := hookChain_eq call (hook :: rest) b s
      constructor
      · rintro agree _ ⟨⟩
        apply asksOnly_of_called
        rw [← generated, ← node]
        exact agree.called
      · intro only
        have same : hookProcess call (hook :: rest) b s = hookChain call (hook :: rest) b s := by
          rw [generated, node]
          exact runChain_replicate (only hook rfl)
        refine ⟨by rw [same], by rw [same], by rw [same], ?_⟩
        rw [same, node]
        exact runChain_decision _ _

/-- Behind a hook that accepts stands one that drops: the generated evaluator never calls it. -/
theorem second_hook_never_called :
    ¬ ∀ (call : VnetfilterAction → Unit → Unit → VnetfilterAction × Unit)
      (processList : List (HookProcess VnetfilterAction)) (b s : Unit),
      EvaluatorsAgree call processList b s := by
  intro claimed
  have agree := claimed (fun answer _ s => (answer, s)) [⟨0, .accept⟩, ⟨0, .drop⟩] () ()
  exact absurd agree.action (by decide)

end Vnetfilter
