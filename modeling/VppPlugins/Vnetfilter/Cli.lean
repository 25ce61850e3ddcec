import VppPlugins.Vnetfilter.Hook

/-! `cli.c`: the command that switches the hook nodes on and off on an interface. -/
namespace Vnetfilter

variable {V : Type}

/-- What `unformat` finds at one pass of the loop over the command line. -/
inductive Word where
  | disable
  | interface (swIfIndex : UInt32)
  | other
  deriving DecidableEq, Repr

def HookPoint.arcName : HookPoint → String
  | .l2InputIp4 => "l2-input-ip4"
  | .l2InputIp6 => "l2-input-ip6"
  | .l2OutputIp4 => "l2-output-ip4"
  | .l2OutputIp6 => "l2-output-ip6"

def HookPoint.nodeName (point : HookPoint) : String := point.arcName ++ "-hook"

def forEachVnetfilterHook : List HookPoint := [.l2InputIp4, .l2InputIp6, .l2OutputIp4, .l2OutputIp6]

/-- The arguments of `vnet_l2_feature_enable_disable`. -/
structure FeatureRequest where
  arcName : String
  nodeName : String
  swIfIndex : UInt32
  enableDisable : Bool
  deriving DecidableEq, Repr

/-- VPP's part, on a state of its own. -/
structure VnetL2 (V : Type) where
  isFreeIndex : V → UInt32 → Bool
  featureEnableDisable : FeatureRequest → V → Int × V

/-- VPP with the requests made to it and the lines printed. -/
structure Console (V : Type) where
  vnet : V
  requests : List FeatureRequest
  output : List String

def Console.print (c : Console V) (line : String) : Console V :=
  { c with output := c.output ++ [line] }

/-- `vnetfilter_hook_enable_disable`, which goes on after an invalid index. -/
def vnetfilterHookEnableDisable (api : VnetL2 V) (c : Console V) (request : FeatureRequest) :
    Console V :=
  let c := if api.isFreeIndex c.vnet request.swIfIndex then c.print "invalid interface name" else c
  let (result, vnet) := api.featureEnableDisable request c.vnet
  let c := { c with vnet, requests := c.requests ++ [request] }
  if result ≠ 0 then
    c.print ("failed to enable/disable " ++ request.nodeName ++ " on " ++ request.arcName)
  else c

/-- The loop over the command line, with `sw_if_index` and `enable_disable`. -/
def parseWords : List Word → UInt32 → Bool → UInt32 × Bool
  | [], swIfIndex, enableDisable => (swIfIndex, enableDisable)
  | .disable :: rest, swIfIndex, _ => parseWords rest swIfIndex false
  | .interface swIfIndex :: rest, _, enableDisable => parseWords rest swIfIndex enableDisable
  | .other :: _, swIfIndex, enableDisable => (swIfIndex, enableDisable)

/-- `vnetfilter_hook_enable_disable_command_fn`, with the error it returns. -/
def vnetfilterHookEnableDisableCommandFn (api : VnetL2 V) (c : Console V) (input : List Word) :
    Console V × Option String :=
  let (swIfIndex, enableDisable) := parseWords input 0xFFFFFFFF true
  if swIfIndex = 0xFFFFFFFF then (c, some "Please specify an interface...")
  else
    (forEachVnetfilterHook.foldl (fun c point =>
      vnetfilterHookEnableDisable api c ⟨point.arcName, point.nodeName, swIfIndex, enableDisable⟩)
      c, none)

def runCommands (api : VnetL2 V) (c : Console V) (inputs : List (List Word)) : Console V :=
  inputs.foldl (fun c input => (vnetfilterHookEnableDisableCommandFn api c input).1) c

/-! What a command line asks for. -/

/-- The words before the first that the command does not know. -/
def accepted (input : List Word) : List Word := input.takeWhile (· ≠ .other)

def Word.index? : Word → Option UInt32
  | .interface swIfIndex => some swIfIndex
  | .disable | .other => none

/-- The interface that the line names last. -/
def namedInterface (input : List Word) : Option UInt32 :=
  ((accepted input).filterMap Word.index?).getLast?.filter (· ≠ 0xFFFFFFFF)

/-- What a line switches, and whether on or off. -/
def switch (input : List Word) : Option (UInt32 × Bool) :=
  (namedInterface input).map fun swIfIndex => (swIfIndex, .disable ∉ accepted input)

def requestAt (switch : UInt32 × Bool) (point : HookPoint) : FeatureRequest :=
  ⟨point.arcName, point.nodeName, switch.1, switch.2⟩

def FeatureRequest.switch (request : FeatureRequest) : UInt32 × Bool :=
  (request.swIfIndex, request.enableDisable)

theorem parseWords_accepted (input : List Word) (swIfIndex : UInt32) (enableDisable : Bool) :
    parseWords input swIfIndex enableDisable =
      (((accepted input).filterMap Word.index?).getLast?.getD swIfIndex,
        enableDisable && decide (Word.disable ∉ accepted input)) := by
  induction input generalizing swIfIndex enableDisable with
  | nil => simp [parseWords, accepted]
  | cons word rest ih =>
      cases word with
      | disable =>
          rw [parseWords, ih]
          simp [accepted, Word.index?]
      | interface i =>
          rw [parseWords, ih]
          simp [accepted, Word.index?, List.getLast?_cons]
      | other => simp [parseWords, accepted]

theorem enableDisable_requests (api : VnetL2 V) (c : Console V) (request : FeatureRequest) :
    (vnetfilterHookEnableDisable api c request).requests = c.requests ++ [request] := by
  simp only [vnetfilterHookEnableDisable]
  split
  · split
    · rfl
    · rfl
  · split
    · rfl
    · rfl

theorem hooks_requests (api : VnetL2 V) (request : HookPoint → FeatureRequest)
    (points : List HookPoint) (c : Console V) :
    (points.foldl (fun c point => vnetfilterHookEnableDisable api c (request point)) c).requests =
      c.requests ++ points.map request := by
  induction points generalizing c with
  | nil => exact (List.append_nil _).symm
  | cons point points ih =>
      rw [List.foldl_cons, ih, enableDisable_requests, List.append_assoc]
      rfl

theorem command_requests (api : VnetL2 V) (c : Console V) (input : List Word) :
    (vnetfilterHookEnableDisableCommandFn api c input).1.requests =
      c.requests ++ (switch input).toList.flatMap fun sw =>
        forEachVnetfilterHook.map (requestAt sw) := by
  simp only [vnetfilterHookEnableDisableCommandFn, parseWords_accepted, switch, namedInterface,
    Bool.true_and]
  cases ((accepted input).filterMap Word.index?).getLast? with
  | none => simp
  | some swIfIndex =>
      by_cases none : swIfIndex = 0xFFFFFFFF
      · simp [none]
      · rw [Option.getD_some, if_neg none]
        simp only [none, ne_eq, not_false_eq_true, decide_true, Option.filter_some, if_true,
          Option.map_some, Option.toList_some, List.flatMap_cons, List.flatMap_nil, List.append_nil]
        exact hooks_requests api (requestAt (swIfIndex, _)) forEachVnetfilterHook c

theorem runCommands_requests (api : VnetL2 V) (inputs : List (List Word)) (c : Console V) :
    (runCommands api c inputs).requests =
      c.requests ++ (inputs.filterMap switch).flatMap fun sw =>
        forEachVnetfilterHook.map (requestAt sw) := by
  induction inputs generalizing c with
  | nil => exact (List.append_nil _).symm
  | cons input inputs ih =>
      rw [runCommands, List.foldl_cons, ← runCommands, ih, command_requests, List.append_assoc]
      cases asked : switch input with
      | none =>
          rw [List.filterMap_cons_none asked]
          rfl
      | some sw =>
          rw [List.filterMap_cons_some asked, List.flatMap_cons]
          simp

theorem requestAt_filter (sw : UInt32 × Bool) (point : HookPoint) :
    (forEachVnetfilterHook.map (requestAt sw)).filter (fun r => r.nodeName = point.nodeName) =
      [requestAt sw point] := by
  cases point <;> rfl

/-- Whatever VPP answers, every hook node gets the same switches on every interface: one for each
line that names an interface, off where the line says `disable` anywhere before its end. -/
theorem hooks_switched_alike (api : VnetL2 V) (vnet : V) (inputs : List (List Word))
    (point : HookPoint) :
    ((runCommands api ⟨vnet, [], []⟩ inputs).requests.filter
        (fun r => r.nodeName = point.nodeName)).map FeatureRequest.switch =
      inputs.filterMap switch := by
  rw [runCommands_requests, List.nil_append]
  induction inputs.filterMap switch with
  | nil => rfl
  | cons sw switches ih =>
      rw [List.flatMap_cons, List.filter_append, requestAt_filter, List.map_append, ih]
      rfl

end Vnetfilter
