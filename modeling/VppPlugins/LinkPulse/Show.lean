import VppPlugins.LinkPulse.Registry

/-! The plugin as its users see it: the outcome of every event, and the list of scripts. -/
namespace LinkPulse
open Faults BlockMemory

variable {lslm : LinkPulseMain} {registry : Registry} {owned : List (Nat × CString)}

/-! The registry alone, with the texts of its refusals. -/

def refusal (registry : Registry) : Op → String
  | .add _ =>
      if link_pulse_CALLBACK_SCRIPT_NUM ≤ registry.elems.length then
        "Max number of scripts reached"
      else "Script already exists"
  | .remove _ => "Script not found"

def carryOut (registry : Registry) (op : Op) : Registry × Outcome :=
  match registry.apply op with
  | some registry' => (registry', .returned none)
  | none => (registry, .returned (some (refusal registry op)))

def answer (registry : Registry) : Event → Registry × Outcome
  | .updateScript .noLine => (registry, .returned none)
  | .updateScript (.unknown rest) => (registry, .returned (some (unknownInput rest)))
  | .updateScript (.trailing _ rest) => (registry, .returned (some (unknownInput rest)))
  | .updateScript (.parsed command) => carryOut registry command.op
  | .linkUpDown name flags => (registry, .started
      (registry.elems.map fun path => ⟨path.bytes, name.bytes, upDown flags⟩))

def outcomes (registry : Registry) : List Event → List Outcome
  | [] => []
  | event :: events => (answer registry event).2 :: outcomes (answer registry event).1 events

def answerAll (registry : Registry) (events : List Event) : Registry :=
  events.foldl (fun r event => (answer r event).1) registry

/-! Each event is answered as the registry answers it. -/

theorem done_error {scriptPath : Option Nat} {error error' : Option String} {t : LinkPulseMain}
    (returned : done lslm scriptPath error = .ok (t, error')) : error' = error := by
  cases scriptPath with
  | none =>
      cases returned
      rfl
  | some pointer =>
      obtain ⟨memory, freed, left⟩ := bind_ok.mp returned
      cases left
      rfl

theorem add_refusal (represents : Represents lslm registry owned) (path : CString)
    {t : LinkPulseMain} {error : String} (failed : registry.apply (.add path) = none)
    (returned : linkPulseUpdateScriptCommandFn lslm (.parsed (.add path)) =
      .ok (t, some error)) : error = refusal registry (.add path) := by
  obtain ⟨memory, stored, owns⟩ := parsed_path represents.owns path
  obtain ⟨entries, own⟩ := loaded_snoc owns
  obtain ⟨found, looked, present⟩ := alreadyExists_loaded entries own
  rw [← represents.scripts] at looked
  rw [← represents.elems] at present
  have length : lslm.callbackScripts.length = registry.elems.length := by
    rw [represents.scripts, represents.elems, pointers, texts, List.length_map, List.length_map]
  simp only [linkPulseUpdateScriptCommandFn, ScriptCommand.path, stored, bind, Except.bind,
    ge_iff_le, length, looked] at returned
  rw [refusal]
  split at returned
  · rename_i full
    rw [if_pos full]
    exact Option.some_inj.mp (done_error returned)
  · rename_i room
    have listed : path ∈ registry.elems := by
      by_contra absent
      exact BoundedSet.add_eq_none.mp failed ⟨Nat.not_le.mp room, absent⟩
    rw [if_pos (present.mpr listed)] at returned
    rw [if_neg room]
    exact Option.some_inj.mp (done_error returned)

theorem del_refusal (represents : Represents lslm registry owned) (path : CString)
    {t : LinkPulseMain} {error : String} (failed : registry.apply (.remove path) = none)
    (returned : linkPulseUpdateScriptCommandFn lslm (.parsed (.del path)) =
      .ok (t, some error)) : error = refusal registry (.remove path) := by
  obtain ⟨memory, stored, owns⟩ := parsed_path represents.owns path
  obtain ⟨entries, own⟩ := loaded_snoc owns
  have absent : path ∉ texts owned := represents.elems ▸ BoundedSet.remove_eq_none.mp failed
  have looked := removeScript_absent entries own absent
  rw [← represents.scripts] at looked
  simp only [linkPulseUpdateScriptCommandFn, ScriptCommand.path, stored, bind, Except.bind,
    looked, Bool.false_eq_true, if_false] at returned
  exact Option.some_inj.mp (done_error returned)

/-- What an event did, with the registry that is left. -/
def Follows (lslm : LinkPulseMain) (registry : Registry) (event : Event) : Prop :=
  ∃ t owned', step lslm event = .ok (t, (answer registry event).2) ∧
    Represents t (answer registry event).1 owned'

theorem command_follows (represents : Represents lslm registry owned) (command : ScriptCommand) :
    Follows lslm registry (.updateScript (.parsed command)) := by
  rw [Follows, answer, carryOut]
  have asked : (LineInput.parsed command).op = some command.op := rfl
  cases updateScript_asked represents asked with
  | done t registry' owned' returned applied represents' =>
      rw [applied]
      exact ⟨t, owned', step_updateScript returned, represents'⟩
  | refused t error owned' returned failed represents' unchanged =>
      rw [failed]
      have text : error = refusal registry command.op := by
        cases command with
        | add path => exact add_refusal represents path failed returned
        | del path => exact del_refusal represents path failed returned
      subst text
      exact ⟨t, owned', step_updateScript returned, represents'⟩

theorem step_follows (represents : Represents lslm registry owned) (event : Event) :
    Follows lslm registry event := by
  cases event with
  | linkUpDown name flags =>
      obtain ⟨t, started, represents', -⟩ := linkUpDown_started represents name flags
      exact ⟨t, owned, step_linkUpDown started, represents'⟩
  | updateScript input =>
      cases input with
      | noLine => exact ⟨lslm, owned, rfl, represents⟩
      | unknown rest => exact ⟨lslm, owned, rfl, represents⟩
      | trailing command rest =>
          have nothing : (LineInput.trailing command rest).op = none := rfl
          obtain ⟨t, error, returned, represents', -⟩ := updateScript_ignored represents nothing
          have left := returned
          simp only [linkPulseUpdateScriptCommandFn] at left
          rw [done_error left] at returned
          exact ⟨t, owned, step_updateScript returned, represents'⟩
      | parsed command => exact command_follows represents command

theorem run_follows {s : System} (represents : Represents s.main registry owned)
    (events : List Event) :
    ∃ t owned', Runs.run System.step s events = .ok t ∧
      Represents t.main (answerAll registry events) owned' ∧
      t.journal = s.journal ++ events.zip (outcomes registry events) := by
  induction events generalizing s registry owned with
  | nil => exact ⟨s, owned, rfl, represents, (List.append_nil _).symm⟩
  | cons event events ih =>
      obtain ⟨u, owned', handled, represents'⟩ := step_follows represents event
      obtain ⟨t, owned'', completed, represents'', journal⟩ :=
        ih (s := ⟨u, s.journal ++ [(event, (answer registry event).2)]⟩) represents'
      refine ⟨t, owned'', ?_, represents'', ?_⟩
      · exact Runs.run_cons_ok.mpr ⟨_, step_recorded handled, completed⟩
      · rw [journal, List.append_assoc]
        rfl

theorem initial_represents : Represents initial .empty [] := ⟨rfl, owns_empty, rfl⟩

/-- The plugin with its memory answers every sequence of events as the bounded ordered set does
alone, and keeps one block for each script. -/
theorem plugin_refines_registry (events : List Event) :
    ∃ s owned, run events = .ok s ∧ s.journal = events.zip (outcomes .empty events) ∧
      s.main.callbackScripts = pointers owned ∧
      texts owned = (answerAll .empty events).elems ∧ (owned.map Prod.fst).Nodup ∧
      ∀ p bytes, s.main.memory.load p = some bytes ↔
        ∃ path, (p, path) ∈ owned ∧ bytes = path.terminated := by
  obtain ⟨s, owned, completed, represents, journal⟩ :=
    run_follows (s := ⟨initial, []⟩) initial_represents events
  refine ⟨s, owned, completed, journal, represents.scripts, represents.elems.symm, ?_, ?_⟩
  · have distinct := represents.owns.distinct
    rw [blocks, List.map_map] at distinct
    exact distinct
  · intro p bytes
    rw [represents.owns.live, blocks, List.mem_map]
    constructor
    · rintro ⟨⟨q, path⟩, member, same⟩
      cases same
      exact ⟨path, member, rfl⟩
    · rintro ⟨path, member, rfl⟩
      exact ⟨(p, path), member, rfl⟩

/-! `link_pulse_show_scripts_command_fn`. -/

/-- The bytes of a string of the source. -/
def ascii (s : String) : List UInt8 := s.toList.map fun c => UInt8.ofNat c.toNat

def scriptLine (script : List UInt8) : List UInt8 :=
  ascii "  - " ++ script ++ ascii " ${ifname} ${status}"

/-- The loop over the entries, with one line for each script. -/
def showScripts (memory : BlockMemory) : List (Option Nat) → Except Fault (List (List UInt8))
  | [] => pure []
  | none :: rest => showScripts memory rest
  | some script :: rest => do
      let text ← cString memory script
      pure (scriptLine text :: (← showScripts memory rest))

def linkPulseShowScriptsCommandFn (lslm : LinkPulseMain) : Except Fault (List (List UInt8)) :=
  if lslm.callbackScripts.length = 0 then pure [ascii "No callback scripts registered"]
  else do
    let lines ← showScripts lslm.memory lslm.callbackScripts
    pure (ascii "Registered callback scripts:" :: lines)

def listing (paths : List CString) : List (List UInt8) :=
  if paths.length = 0 then [ascii "No callback scripts registered"]
  else ascii "Registered callback scripts:" :: paths.map fun path => scriptLine path.bytes

theorem showScripts_lines {memory : BlockMemory}
    (entries : ∀ o ∈ owned, memory.load o.1 = some o.2.terminated) :
    showScripts memory (pointers owned) =
      .ok ((texts owned).map fun path => scriptLine path.bytes) := by
  induction owned with
  | nil => rfl
  | cons o rest ih =>
      have later := ih fun o' member => entries o' (List.mem_cons_of_mem o member)
      have script := cString_loaded (entries o List.mem_cons_self)
      simp only [pointers] at later
      simp only [pointers, texts, List.map_cons, showScripts, script, later, bind, Except.bind,
        pure, Except.pure]

theorem show_lists (represents : Represents lslm registry owned) :
    linkPulseShowScriptsCommandFn lslm = .ok (listing registry.elems) := by
  have lines := showScripts_lines fun o member => loaded represents.owns member
  rw [linkPulseShowScriptsCommandFn, listing, represents.scripts, lines, represents.elems, pointers,
    texts, List.length_map, List.length_map]
  split
  · rfl
  · rfl

theorem scriptLine_inj {s t : List UInt8} (same : scriptLine s = scriptLine t) : s = t :=
  List.append_cancel_left (List.append_cancel_right same)

theorem path_ext {p q : CString} (same : p.bytes = q.bytes) : p = q := by
  cases p
  cases q
  cases same
  rfl

theorem headers_differ :
    ascii "No callback scripts registered" ≠ ascii "Registered callback scripts:" := by decide

theorem listing_inj {ps qs : List CString} (same : listing ps = listing qs) : ps = qs := by
  have lines : Function.Injective fun path : CString => scriptLine path.bytes :=
    fun p q same => path_ext (scriptLine_inj same)
  cases ps with
  | nil =>
      cases qs with
      | nil => rfl
      | cons q qs => exact absurd (List.cons.inj same).1 headers_differ
  | cons p ps =>
      cases qs with
      | nil => exact absurd (List.cons.inj same).1.symm headers_differ
      | cons q qs => exact List.map_injective_iff.mpr lines (List.cons.inj same).2

/-- The outcomes of further events. -/
def behaviour (lslm : LinkPulseMain) (later : List Event) : Except Fault (List Outcome) :=
  (Runs.run System.step ⟨lslm, []⟩ later).map fun s => s.journal.map Prod.snd

theorem outcomes_length (registry : Registry) (events : List Event) :
    (outcomes registry events).length = events.length := by
  induction events generalizing registry with
  | nil => rfl
  | cons event events ih => rw [outcomes, List.length_cons, List.length_cons, ih]

theorem behaviour_outcomes (represents : Represents lslm registry owned) (later : List Event) :
    behaviour lslm later = .ok (outcomes registry later) := by
  obtain ⟨t, owned', completed, -, journal⟩ :=
    run_follows (s := ⟨lslm, []⟩) represents later
  rw [behaviour, completed, Except.map, journal, List.nil_append, List.map_snd_zip]
  exact Nat.le_of_eq (outcomes_length registry later)

/-- The scripts that a link event starts tell the registry. -/
theorem elems_of_outcomes {registry' : Registry}
    (same : ∀ later, outcomes registry later = outcomes registry' later) :
    registry.elems = registry'.elems := by
  have started := same [.linkUpDown ⟨[], List.not_mem_nil⟩ 0]
  simp only [outcomes, answer, List.cons.injEq, Outcome.started.injEq, and_true] at started
  refine List.map_injective_iff.mpr (fun p q attempt => ?_) started
  exact path_ext (StartAttempt.mk.inj attempt).1

theorem registry_ext {registry' : Registry} (same : registry.elems = registry'.elems) :
    registry = registry' := by
  cases registry
  cases registry'
  cases same
  rfl

/-- The list that the command shows tells everything that the plugin will do. -/
theorem shown_alike_iff (events events' : List Event) :
    ∃ s s' out out', run events = .ok s ∧ run events' = .ok s' ∧
      linkPulseShowScriptsCommandFn s.main = .ok out ∧
      linkPulseShowScriptsCommandFn s'.main = .ok out' ∧
      (out = out' ↔ ∀ later, behaviour s.main later = behaviour s'.main later) := by
  obtain ⟨s, owned, completed, represents, -⟩ :=
    run_follows (s := ⟨initial, []⟩) initial_represents events
  obtain ⟨s', owned', completed', represents', -⟩ :=
    run_follows (s := ⟨initial, []⟩) initial_represents events'
  refine ⟨s, s', _, _, completed, completed', show_lists represents, show_lists represents', ?_⟩
  simp only [behaviour_outcomes represents, behaviour_outcomes represents', Except.ok.injEq]
  constructor
  · intro same later
    rw [registry_ext (listing_inj same)]
  · intro same
    rw [elems_of_outcomes same]

end LinkPulse
