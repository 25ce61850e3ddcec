import VppPlugins.Library.Runs
import VppPlugins.Library.Faults
import VppPlugins.Library.CStrings

/-! `link_pulse.c`. The scripts stand in memory, so a path that is read or freed after it was
freed is a fault. -/
namespace LinkPulse
open Faults

inductive Fault where
  | strayAccess
  | strayFree
  deriving DecidableEq, Repr

def link_pulse_CALLBACK_SCRIPT_NUM : Nat := 10

/-- `link_pulse_main_t` and the memory its vector points into. -/
structure LinkPulseMain where
  memory : BlockMemory
  callbackScripts : List (Option Nat)

def initial : LinkPulseMain := ⟨.empty, []⟩

def VNET_HW_INTERFACE_FLAG_LINK_UP : UInt32 := 1

inductive ScriptCommand where
  | add (path : CString)
  | del (path : CString)

def ScriptCommand.path : ScriptCommand → CString
  | .add path => path
  | .del path => path

/-- What `unformat` finds on the command line. -/
inductive LineInput where
  | noLine
  | unknown (rest : String)
  | trailing (command : ScriptCommand) (rest : String)
  | parsed (command : ScriptCommand)

def unknownInput (rest : String) : String := "unknown input `" ++ rest ++ "'"

def cString (memory : BlockMemory) (pointer : Nat) : Except Fault (List UInt8) :=
  orFault .strayAccess ((memory.load pointer).bind CString.upToNul)

def strcmp (memory : BlockMemory) (p q : Nat) : Except Fault Int := do
  let a ← orFault .strayAccess (memory.load p)
  let b ← orFault .strayAccess (memory.load q)
  orFault .strayAccess (CString.strcmp a b)

def vecFree (memory : BlockMemory) (pointer : Nat) : Except Fault BlockMemory :=
  orFault .strayFree (memory.free pointer)

def vecAdd1 (memory : BlockMemory) (pointer : Nat) (byte : UInt8) : Except Fault BlockMemory := do
  let bytes ← orFault .strayAccess (memory.load pointer)
  orFault .strayAccess (memory.store pointer (bytes ++ [byte]))

/-- The loop that looks for a script before it is added. -/
def alreadyExists (memory : BlockMemory) (scriptPath : Nat) :
    List (Option Nat) → Except Fault Bool
  | [] => pure false
  | none :: rest => alreadyExists memory scriptPath rest
  | some script :: rest => do
      if (← strcmp memory script scriptPath) = 0 then pure true
      else alreadyExists memory scriptPath rest

/-- The loop that removes a script, with `found`. -/
def removeScript (memory : BlockMemory) (scriptPath : Nat) :
    List (Option Nat) → Except Fault (BlockMemory × List (Option Nat) × Bool)
  | [] => pure (memory, [], false)
  | none :: rest => do
      let (memory, rest, found) ← removeScript memory scriptPath rest
      pure (memory, none :: rest, found)
  | some script :: rest => do
      if (← strcmp memory script scriptPath) = 0 then
        -- `vec_delete` closes the gap and the loop ends here
        pure (← vecFree memory script, rest, true)
      else
        let (memory, rest, found) ← removeScript memory scriptPath rest
        pure (memory, some script :: rest, found)

/-- The label `done`. -/
def done (lslm : LinkPulseMain) (scriptPath : Option Nat) (error : Option String) :
    Except Fault (LinkPulseMain × Option String) :=
  match scriptPath with
  | none => pure (lslm, error)
  | some pointer => do
      let memory ← vecFree lslm.memory pointer
      pure ({ lslm with memory }, error)

def linkPulseUpdateScriptCommandFn (lslm : LinkPulseMain) (input : LineInput) :
    Except Fault (LinkPulseMain × Option String) :=
  match input with
  | .noLine => pure (lslm, none)
  | .unknown rest => done lslm none (some (unknownInput rest))
  | .trailing command rest =>
      let (memory, scriptPath) := lslm.memory.alloc command.path.bytes
      done { lslm with memory } (some scriptPath) (some (unknownInput rest))
  | .parsed command => do
      let (memory, scriptPath) := lslm.memory.alloc command.path.bytes
      let memory ← vecAdd1 memory scriptPath 0
      let lslm := { lslm with memory }
      match command with
      | .add _ =>
          if lslm.callbackScripts.length ≥ link_pulse_CALLBACK_SCRIPT_NUM then
            done lslm (some scriptPath) (some "Max number of scripts reached")
          else if (← alreadyExists memory scriptPath lslm.callbackScripts) then
            done lslm (some scriptPath) (some "Script already exists")
          else
            -- the vector owns the path from here on
            done { lslm with callbackScripts := lslm.callbackScripts ++ [some scriptPath] } none none
      | .del _ =>
          let (memory, callbackScripts, found) ←
            removeScript memory scriptPath lslm.callbackScripts
          done ⟨memory, callbackScripts⟩ (some scriptPath)
            (if found then none else some "Script not found")

/-- One call of `link_pulse_run_script`, with its arguments as `execv` reads them. -/
structure StartAttempt where
  script : List UInt8
  ifName : List UInt8
  status : String
  deriving DecidableEq, Repr

def linkPulseRunScript (memory : BlockMemory) (script ifName : Nat) (isUp : Bool) :
    Except Fault StartAttempt := do
  let argv0 ← cString memory script
  let argv1 ← cString memory ifName
  pure ⟨argv0, argv1, if isUp then "up" else "down"⟩

def runScripts (memory : BlockMemory) (ifName : Nat) (isUp : Bool) :
    List (Option Nat) → Except Fault (List StartAttempt)
  | [] => pure []
  | none :: rest => runScripts memory ifName isUp rest
  | some script :: rest => do
      let attempt ← linkPulseRunScript memory script ifName isUp
      pure (attempt :: (← runScripts memory ifName isUp rest))

/-- `name` is the name of the interface with the index that VPP passes. -/
def linkPulseHwInterfaceLinkUpDown (lslm : LinkPulseMain) (name : CString) (flags : UInt32) :
    Except Fault (LinkPulseMain × List StartAttempt) := do
  let isUp : Bool := flags &&& VNET_HW_INTERFACE_FLAG_LINK_UP ≠ 0
  let (memory, ifName) := lslm.memory.alloc (name.bytes ++ [0])
  let attempts ← runScripts memory ifName isUp lslm.callbackScripts
  let memory ← vecFree memory ifName
  pure ({ lslm with memory }, attempts)

inductive Event where
  | updateScript (input : LineInput)
  | linkUpDown (name : CString) (flags : UInt32)

/-- What an event does for its caller: the error it returns, or the scripts it starts. -/
inductive Outcome where
  | returned (error : Option String)
  | started (attempts : List StartAttempt)

def step (lslm : LinkPulseMain) : Event → Except Fault (LinkPulseMain × Outcome)
  | .updateScript input => do
      let (lslm, error) ← linkPulseUpdateScriptCommandFn lslm input
      pure (lslm, .returned error)
  | .linkUpDown name flags => do
      let (lslm, attempts) ← linkPulseHwInterfaceLinkUpDown lslm name flags
      pure (lslm, .started attempts)

/-- The plugin with the events it has handled and their outcomes. -/
structure System where
  main : LinkPulseMain
  journal : List (Event × Outcome)

def System.step (s : System) (event : Event) : Except Fault System := do
  let (main, outcome) ← LinkPulse.step s.main event
  pure ⟨main, s.journal ++ [(event, outcome)]⟩

def run (events : List Event) : Except Fault System := Runs.run System.step ⟨initial, []⟩ events

end LinkPulse
