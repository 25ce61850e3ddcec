import VppPlugins.LinkPulse.Plugin
import VppPlugins.Library.BoundedSet
import Mathlib.Data.List.Forall2

/-! The registry of scripts is a bounded set in the order of insertion. -/
namespace LinkPulse
open Faults BlockMemory

abbrev Registry : Type := BoundedSet CString link_pulse_CALLBACK_SCRIPT_NUM

abbrev Op : Type := BoundedSet.Op CString

def ScriptCommand.op : ScriptCommand → Op
  | .add path => .add path
  | .del path => .remove path

/-- What a command line asks of the registry, if anything. -/
def LineInput.op : LineInput → Option Op
  | .parsed command => some command.op
  | .noLine | .unknown _ | .trailing _ _ => none

/-- The operation that an event carried out. -/
def succeeded : Event × Outcome → Option Op
  | (.updateScript input, .returned none) => input.op
  | _ => none

/-- The vector's pointers lead to the paths, in this order. -/
def Holds (lslm : LinkPulseMain) (paths : List CString) : Prop :=
  List.Forall₂ (fun entry path => ∃ script, entry = some script ∧
    cString lslm.memory script = .ok path.bytes) lslm.callbackScripts paths

def upDown (flags : UInt32) : String :=
  if flags &&& VNET_HW_INTERFACE_FLAG_LINK_UP ≠ 0 then "up" else "down"

/-- The registry after a run is the bounded ordered set of `paths`, and answers the next event
as such. -/
structure BoundedOrderedSet (s : System) (paths : List CString) : Prop where
  holds : Holds s.main paths
  bounded : paths.length ≤ link_pulse_CALLBACK_SCRIPT_NUM
  nodup : paths.Nodup
  standing : paths = BoundedSet.standing (s.journal.filterMap succeeded)
  add : ∀ path, ∃ t error,
    step s.main (.updateScript (.parsed (.add path))) = .ok (t, .returned error) ∧
      (error = none ↔ paths.length < link_pulse_CALLBACK_SCRIPT_NUM ∧ path ∉ paths)
  del : ∀ path, ∃ t error,
    step s.main (.updateScript (.parsed (.del path))) = .ok (t, .returned error) ∧
      (error = none ↔ path ∈ paths)
  refused : ∀ input t error,
    step s.main (.updateScript input) = .ok (t, .returned (some error)) →
      t.callbackScripts = s.main.callbackScripts ∧ Holds t paths
  link : ∀ name flags, ∃ t,
    step s.main (.linkUpDown name flags) =
      .ok (t, .started (paths.map fun path => ⟨path.bytes, name.bytes, upDown flags⟩)) ∧
      t.callbackScripts = s.main.callbackScripts ∧ Holds t paths

/-! The vector and the blocks it owns. -/

def pointers (owned : List (Nat × CString)) : List (Option Nat) := owned.map fun o => some o.1

def blocks (owned : List (Nat × CString)) : List (Nat × List UInt8) :=
  owned.map fun o => (o.1, o.2.terminated)

def texts (owned : List (Nat × CString)) : List CString := owned.map Prod.snd

/-- Every entry owns its path, and nothing else is allocated. -/
structure Represents (lslm : LinkPulseMain) (registry : Registry) (owned : List (Nat × CString)) :
    Prop where
  scripts : lslm.callbackScripts = pointers owned
  owns : lslm.memory.Owns (blocks owned)
  elems : registry.elems = texts owned

variable {lslm : LinkPulseMain} {registry : Registry} {owned : List (Nat × CString)}
  {memory : BlockMemory} {p : Nat} {path : CString}

theorem blocks_snoc (o : Nat × CString) :
    blocks (owned ++ [o]) = blocks owned ++ [(o.1, o.2.terminated)] := List.map_append

theorem loaded (owns : memory.Owns (blocks owned)) {o : Nat × CString} (member : o ∈ owned) :
    memory.load o.1 = some o.2.terminated :=
  (owns.live _ _).mpr (List.mem_map.mpr ⟨o, member, rfl⟩)

/-- A block allocated beside the entries' leaves every string readable. -/
theorem loaded_snoc (owns : memory.Owns (blocks (owned ++ [(p, path)]))) :
    (∀ o ∈ owned, memory.load o.1 = some o.2.terminated) ∧
      memory.load p = some path.terminated := by
  constructor
  · intro o member
    exact loaded owns (List.mem_append_left _ member)
  · exact loaded owns (List.mem_append_right _ List.mem_cons_self)

theorem cString_loaded (held : memory.load p = some path.terminated) :
    cString memory p = .ok path.bytes := by
  rw [cString, held, Option.bind_some, CString.upToNul_terminated, orFault]

theorem holds_of_represents (represents : Represents lslm registry owned) :
    Holds lslm registry.elems := by
  rw [Holds, represents.scripts, represents.elems, pointers, texts, List.forall₂_map_left_iff,
    List.forall₂_map_right_iff, List.forall₂_same]
  intro o member
  exact ⟨o.1, rfl, cString_loaded (loaded represents.owns member)⟩

theorem strcmp_loaded {q : Nat} {other : CString} (first : memory.load p = some path.terminated)
    (second : memory.load q = some other.terminated) :
    ∃ c, strcmp memory p q = .ok c ∧ (c = 0 ↔ path = other) := by
  obtain ⟨c, compared, zero⟩ := CString.strcmp_terminated path other
  refine ⟨c, ?_, zero⟩
  simp only [strcmp, first, second, compared, orFault, bind, Except.bind]

theorem alreadyExists_loaded (entries : ∀ o ∈ owned, memory.load o.1 = some o.2.terminated)
    (own : memory.load p = some path.terminated) :
    ∃ found, alreadyExists memory p (pointers owned) = .ok found ∧
      (found = true ↔ path ∈ texts owned) := by
  induction owned with
  | nil => exact ⟨false, rfl, by simp [texts]⟩
  | cons o rest ih =>
      obtain ⟨c, compared, zero⟩ := strcmp_loaded (entries o List.mem_cons_self) own
      obtain ⟨found, later, present⟩ :=
        ih fun o' member => entries o' (List.mem_cons_of_mem o member)
      have unfolded : alreadyExists memory p (pointers (o :: rest)) =
          if c = 0 then pure true else alreadyExists memory p (pointers rest) := by
        simp only [pointers, List.map_cons, alreadyExists, compared, bind, Except.bind]
      by_cases same : o.2 = path
      · refine ⟨true, ?_, by simp [texts, same]⟩
        rw [unfolded, if_pos (zero.mpr same)]
        rfl
      · refine ⟨found, ?_, ?_⟩
        · rw [unfolded, if_neg (fun equal => same (zero.mp equal)), later]
        · rw [present]
          simp only [texts, List.map_cons, List.mem_cons, Ne.symm same, false_or]

/-! The loop that removes, entry by entry. -/

theorem removeScript_here {o : Nat × CString} {rest : List (Option Nat)} {memory' : BlockMemory}
    (entry : memory.load o.1 = some o.2.terminated) (own : memory.load p = some path.terminated)
    (same : o.2 = path) (freed : memory.free o.1 = some memory') :
    removeScript memory p (some o.1 :: rest) = .ok (memory', rest, true) := by
  obtain ⟨c, compared, zero⟩ := strcmp_loaded entry own
  rw [removeScript, compared]
  change (if c = 0 then _ else _) = _
  rw [if_pos (zero.mpr same), vecFree, freed]
  rfl

theorem removeScript_later {o : Nat × CString} {rest rest' : List (Option Nat)}
    {memory' : BlockMemory} {found : Bool} (entry : memory.load o.1 = some o.2.terminated)
    (own : memory.load p = some path.terminated) (other : o.2 ≠ path)
    (later : removeScript memory p rest = .ok (memory', rest', found)) :
    removeScript memory p (some o.1 :: rest) = .ok (memory', some o.1 :: rest', found) := by
  obtain ⟨c, compared, zero⟩ := strcmp_loaded entry own
  rw [removeScript, compared]
  change (if c = 0 then _ else _) = _
  rw [if_neg (fun equal => other (zero.mp equal)), later]
  rfl

theorem removeScript_absent (entries : ∀ o ∈ owned, memory.load o.1 = some o.2.terminated)
    (own : memory.load p = some path.terminated) (absent : path ∉ texts owned) :
    removeScript memory p (pointers owned) = .ok (memory, pointers owned, false) := by
  induction owned with
  | nil => rfl
  | cons o rest ih =>
      simp only [texts, List.map_cons, List.mem_cons, not_or] at absent
      exact removeScript_later (entries o List.mem_cons_self) own (Ne.symm absent.1)
        (ih (fun o' member => entries o' (List.mem_cons_of_mem o member)) absent.2)

/-- `front` are the blocks of the entries that the loop has passed. -/
theorem removeScript_found {front : List (Nat × List UInt8)}
    (owns : memory.Owns (front ++ (blocks owned ++ [(p, path.terminated)])))
    (present : path ∈ texts owned) :
    ∃ memory' owned', removeScript memory p (pointers owned) =
        .ok (memory', pointers owned', true) ∧
      memory'.Owns (front ++ (blocks owned' ++ [(p, path.terminated)])) ∧
      texts owned' = (texts owned).erase path := by
  induction owned generalizing front with
  | nil => cases present
  | cons o rest ih =>
      have entry : memory.load o.1 = some o.2.terminated := Owns.load owns
      have own : memory.load p = some path.terminated :=
        (owns.live _ _).mpr (by simp)
      by_cases same : o.2 = path
      · obtain ⟨memory', freed, owns'⟩ := Owns.free owns
        refine ⟨memory', rest, removeScript_here entry own same freed, owns', ?_⟩
        rw [← same]
        exact (List.erase_cons_head ..).symm
      · have passed : front ++ (blocks (o :: rest) ++ [(p, path.terminated)]) =
            front ++ [(o.1, o.2.terminated)] ++ (blocks rest ++ [(p, path.terminated)]) := by
          simp [blocks]
        rw [passed] at owns
        obtain ⟨memory', rest', removed, owns', erased⟩ :=
          ih owns ((List.mem_cons.mp present).resolve_left (Ne.symm same))
        refine ⟨memory', o :: rest', removeScript_later entry own same removed, ?_, ?_⟩
        · simpa [blocks] using owns'
        · simp only [texts, List.map_cons] at erased ⊢
          rw [erased, List.erase_cons_tail (by simpa using same)]

/-! One event. -/

theorem pointers_snoc (o : Nat × CString) : pointers (owned ++ [o]) = pointers owned ++ [some o.1] :=
  List.map_append

theorem texts_snoc (o : Nat × CString) : texts (owned ++ [o]) = texts owned ++ [o.2] :=
  List.map_append

/-- Parsing leaves the path in a block of its own. -/
theorem parsed_path (owns : memory.Owns (blocks owned)) (path : CString) :
    ∃ memory', vecAdd1 (memory.alloc path.bytes).1 (memory.alloc path.bytes).2 0 = .ok memory' ∧
      memory'.Owns (blocks (owned ++ [((memory.alloc path.bytes).2, path)])) := by
  have allocated := owns.alloc path.bytes
  obtain ⟨memory', stored, owns'⟩ := Owns.store allocated (path.bytes ++ [0])
  refine ⟨memory', ?_, blocks_snoc _ ▸ owns'⟩
  simp only [vecAdd1, Owns.load allocated, orFault, bind, Except.bind, stored]

/-- Leaving by `done` with a path frees it. -/
theorem done_frees (owns : memory.Owns (blocks (owned ++ [(p, path)])))
    (scripts : List (Option Nat)) (error : Option String) :
    ∃ memory', done ⟨memory, scripts⟩ (some p) error = .ok (⟨memory', scripts⟩, error) ∧
      memory'.Owns (blocks owned) := by
  rw [blocks_snoc] at owns
  obtain ⟨memory', freed, owns'⟩ := Owns.free owns
  refine ⟨memory', ?_, by simpa using owns'⟩
  simp only [done, vecFree, freed, orFault, bind, Except.bind, pure, Except.pure]

/-- The operation is carried out, or refused and nothing changes. -/
inductive Answered (lslm : LinkPulseMain) (registry : Registry) (op : Op)
    (result : Except Fault (LinkPulseMain × Option String)) : Prop where
  | done (t : LinkPulseMain) (registry' : Registry) (owned : List (Nat × CString))
      (returned : result = .ok (t, none)) (applied : registry.apply op = some registry')
      (represents : Represents t registry' owned)
  | refused (t : LinkPulseMain) (error : String) (owned : List (Nat × CString))
      (returned : result = .ok (t, some error)) (failed : registry.apply op = none)
      (represents : Represents t registry owned)
      (unchanged : t.callbackScripts = lslm.callbackScripts)

theorem answered_refused {op : Op} {result : Except Fault (LinkPulseMain × Option String)}
    (error : String) (represents : Represents lslm registry owned)
    (owns : memory.Owns (blocks (owned ++ [(p, path)]))) (failed : registry.apply op = none)
    (returned : result = done ⟨memory, lslm.callbackScripts⟩ (some p) (some error)) :
    Answered lslm registry op result := by
  obtain ⟨memory', left, owns'⟩ := done_frees owns lslm.callbackScripts (some error)
  exact .refused ⟨memory', lslm.callbackScripts⟩ error owned (returned.trans left) failed
    ⟨represents.scripts, owns', represents.elems⟩ rfl

theorem updateScript_add (represents : Represents lslm registry owned) (path : CString) :
    Answered lslm registry (.add path)
      (linkPulseUpdateScriptCommandFn lslm (.parsed (.add path))) := by
  obtain ⟨memory, stored, owns⟩ := parsed_path represents.owns path
  obtain ⟨entries, own⟩ := loaded_snoc owns
  obtain ⟨found, looked, present⟩ := alreadyExists_loaded entries own
  rw [← represents.scripts] at looked
  rw [← represents.elems] at present
  have length : lslm.callbackScripts.length = registry.elems.length := by
    rw [represents.scripts, represents.elems, pointers, texts, List.length_map, List.length_map]
  by_cases full : link_pulse_CALLBACK_SCRIPT_NUM ≤ registry.elems.length
  · apply answered_refused "Max number of scripts reached" represents owns
    · exact BoundedSet.add_eq_none.mpr fun room => Nat.not_lt.mpr full room.1
    · simp only [linkPulseUpdateScriptCommandFn, ScriptCommand.path, stored, bind, Except.bind,
        ge_iff_le, length, full, if_true]
  · by_cases listed : path ∈ registry.elems
    · apply answered_refused "Script already exists" represents owns
      · exact BoundedSet.add_eq_none.mpr fun room => room.2 listed
      · simp only [linkPulseUpdateScriptCommandFn, ScriptCommand.path, stored, bind, Except.bind,
          ge_iff_le, length, full, if_false, looked, present.mpr listed, if_true]
    · have absent : found = false := Bool.eq_false_iff.mpr fun yes => listed (present.mp yes)
      refine .done ⟨memory, lslm.callbackScripts ++ [some (lslm.memory.alloc path.bytes).2]⟩ _
        (owned ++ [((lslm.memory.alloc path.bytes).2, path)]) ?_
        (dif_pos ⟨Nat.not_le.mp full, listed⟩) ⟨?_, owns, ?_⟩
      · simp only [linkPulseUpdateScriptCommandFn, ScriptCommand.path, stored, bind, Except.bind,
          ge_iff_le, length, full, if_false, looked, absent, Bool.false_eq_true, done, pure,
          Except.pure]
      · rw [pointers_snoc, represents.scripts]
      · rw [texts_snoc, ← represents.elems]

theorem updateScript_del (represents : Represents lslm registry owned) (path : CString) :
    Answered lslm registry (.remove path)
      (linkPulseUpdateScriptCommandFn lslm (.parsed (.del path))) := by
  obtain ⟨memory, stored, owns⟩ := parsed_path represents.owns path
  by_cases listed : path ∈ registry.elems
  · have split : blocks (owned ++ [((lslm.memory.alloc path.bytes).2, path)]) =
        [] ++ (blocks owned ++ [((lslm.memory.alloc path.bytes).2, path.terminated)]) :=
      blocks_snoc _
    obtain ⟨memory', owned', removed, owns', erased⟩ :=
      removeScript_found (split ▸ owns) (represents.elems ▸ listed)
    obtain ⟨memory'', left, owns''⟩ :=
      done_frees (blocks_snoc (_, path) ▸ owns') (pointers owned') none
    refine .done ⟨memory'', pointers owned'⟩ _ owned' ?_ (if_pos listed) ⟨rfl, owns'', ?_⟩
    · simp only [linkPulseUpdateScriptCommandFn, ScriptCommand.path, stored, bind, Except.bind,
        represents.scripts, removed, if_true, left]
    · rw [erased, ← represents.elems]
  · have failed : registry.apply (.remove path) = none := BoundedSet.remove_eq_none.mpr listed
    apply answered_refused "Script not found" represents owns failed
    obtain ⟨entries, own⟩ := loaded_snoc owns
    have looked := removeScript_absent entries own (represents.elems ▸ listed)
    rw [← represents.scripts] at looked
    simp only [linkPulseUpdateScriptCommandFn, ScriptCommand.path, stored, bind, Except.bind,
      looked, Bool.false_eq_true, if_false]

theorem updateScript_asked (represents : Represents lslm registry owned) {input : LineInput}
    {op : Op} (asked : input.op = some op) :
    Answered lslm registry op (linkPulseUpdateScriptCommandFn lslm input) := by
  cases input with
  | parsed command =>
      cases asked
      cases command with
      | add path => exact updateScript_add represents path
      | del path => exact updateScript_del represents path
  | noLine => cases asked
  | unknown rest => cases asked
  | trailing command rest => cases asked

/-- A line that is no command leaves the registry alone. -/
theorem updateScript_ignored (represents : Represents lslm registry owned) {input : LineInput}
    (nothing : input.op = none) :
    ∃ t error, linkPulseUpdateScriptCommandFn lslm input = .ok (t, error) ∧
      Represents t registry owned ∧ t.callbackScripts = lslm.callbackScripts := by
  cases input with
  | noLine => exact ⟨lslm, none, rfl, represents, rfl⟩
  | unknown rest => exact ⟨lslm, some (unknownInput rest), rfl, represents, rfl⟩
  | trailing command rest =>
      obtain ⟨memory, freed, owns⟩ := Owns.free (represents.owns.alloc command.path.bytes)
      rw [List.append_nil] at owns
      refine ⟨⟨memory, lslm.callbackScripts⟩, some (unknownInput rest), ?_,
        ⟨represents.scripts, owns, represents.elems⟩, rfl⟩
      simp only [linkPulseUpdateScriptCommandFn, done, vecFree, freed, orFault, bind, Except.bind,
        pure, Except.pure]
  | parsed command => cases nothing

/-- An error leaves the vector and its paths as they were. -/
theorem updateScript_refused (represents : Represents lslm registry owned) {input : LineInput}
    {t : LinkPulseMain} {error : String}
    (failed : linkPulseUpdateScriptCommandFn lslm input = .ok (t, some error)) :
    t.callbackScripts = lslm.callbackScripts ∧ ∃ owned', Represents t registry owned' := by
  cases asked : input.op with
  | some op =>
      cases updateScript_asked represents asked with
      | done u registry' owned' returned applied represents' =>
          cases returned.symm.trans failed
      | refused u error' owned' returned refused represents' unchanged =>
          cases returned.symm.trans failed
          exact ⟨unchanged, owned', represents'⟩
  | none =>
      obtain ⟨u, error', returned, represents', unchanged⟩ :=
        updateScript_ignored represents asked
      cases returned.symm.trans failed
      exact ⟨unchanged, owned, represents'⟩

theorem runScripts_attempts {name : CString} (isUp : Bool)
    (entries : ∀ o ∈ owned, memory.load o.1 = some o.2.terminated)
    (own : memory.load p = some name.terminated) :
    runScripts memory p isUp (pointers owned) = .ok ((texts owned).map fun path =>
      ⟨path.bytes, name.bytes, if isUp then "up" else "down"⟩) := by
  induction owned with
  | nil => rfl
  | cons o rest ih =>
      have later := ih fun o' member => entries o' (List.mem_cons_of_mem o member)
      have script := cString_loaded (entries o List.mem_cons_self)
      simp only [pointers] at later
      simp only [pointers, texts, List.map_cons, runScripts, linkPulseRunScript, script,
        cString_loaded own, later, bind, Except.bind, pure, Except.pure]

theorem linkUpDown_started (represents : Represents lslm registry owned) (name : CString)
    (flags : UInt32) :
    ∃ t, linkPulseHwInterfaceLinkUpDown lslm name flags =
        .ok (t, registry.elems.map fun path => ⟨path.bytes, name.bytes, upDown flags⟩) ∧
      Represents t registry owned ∧ t.callbackScripts = lslm.callbackScripts := by
  have allocated := represents.owns.alloc name.terminated
  obtain ⟨entries, own⟩ := loaded_snoc (blocks_snoc (_, name) ▸ allocated)
  have attempts := runScripts_attempts (flags &&& VNET_HW_INTERFACE_FLAG_LINK_UP ≠ 0) entries own
  obtain ⟨memory, freed, owns⟩ := Owns.free allocated
  rw [List.append_nil] at owns
  rw [← represents.scripts, ← represents.elems] at attempts
  refine ⟨⟨memory, lslm.callbackScripts⟩, ?_, ⟨represents.scripts, owns, represents.elems⟩, rfl⟩
  rw [CString.terminated] at attempts freed
  simp only [decide_eq_true_eq] at attempts
  simp only [linkPulseHwInterfaceLinkUpDown, attempts, vecFree, freed, orFault, bind, Except.bind,
    pure, Except.pure, upDown]

/-! Runs. -/

/-- The registry holds what the journal says was added and not deleted since. -/
def Invariant (s : System) : Prop := ∃ registry owned, Represents s.main registry owned ∧
  registry.elems = BoundedSet.standing (s.journal.filterMap succeeded)

theorem initial_invariant : Invariant ⟨initial, []⟩ :=
  ⟨.empty, [], ⟨rfl, owns_empty, rfl⟩, rfl⟩

theorem step_recorded {s : System} {event : Event} {t : LinkPulseMain} {outcome : Outcome}
    (handled : step s.main event = .ok (t, outcome)) :
    s.step event = .ok ⟨t, s.journal ++ [(event, outcome)]⟩ := by
  rw [System.step, handled]
  rfl

theorem step_updateScript {input : LineInput} {t : LinkPulseMain} {error : Option String}
    (returned : linkPulseUpdateScriptCommandFn lslm input = .ok (t, error)) :
    step lslm (.updateScript input) = .ok (t, .returned error) := by
  rw [step, returned]
  rfl

theorem updateScript_of_step {input : LineInput} {t : LinkPulseMain} {error : Option String}
    (handled : step lslm (.updateScript input) = .ok (t, .returned error)) :
    linkPulseUpdateScriptCommandFn lslm input = .ok (t, error) := by
  obtain ⟨⟨u, error'⟩, returned, same⟩ := bind_ok.mp handled
  cases same
  exact returned

theorem step_linkUpDown {name : CString} {flags : UInt32} {t : LinkPulseMain}
    {attempts : List StartAttempt}
    (started : linkPulseHwInterfaceLinkUpDown lslm name flags = .ok (t, attempts)) :
    step lslm (.linkUpDown name flags) = .ok (t, .started attempts) := by
  rw [step, started]
  rfl

/-- An event that carries nothing out leaves standing what stood. -/
theorem kept_standing {s : System} {t : LinkPulseMain} {event : Event} {outcome : Outcome}
    (stands : registry.elems = BoundedSet.standing (s.journal.filterMap succeeded))
    (represents : Represents t registry owned) (nothing : succeeded (event, outcome) = none) :
    Invariant ⟨t, s.journal ++ [(event, outcome)]⟩ := by
  refine ⟨registry, owned, represents, ?_⟩
  rw [List.filterMap_append, List.filterMap_cons_none nothing, List.filterMap_nil,
    List.append_nil, stands]

theorem applied_standing {s : System} {t : LinkPulseMain} {registry' : Registry} {op : Op}
    {event : Event} {outcome : Outcome}
    (stands : registry.elems = BoundedSet.standing (s.journal.filterMap succeeded))
    (applied : registry.apply op = some registry') (represents : Represents t registry' owned)
    (carried : succeeded (event, outcome) = some op) :
    Invariant ⟨t, s.journal ++ [(event, outcome)]⟩ := by
  refine ⟨registry', owned, represents, ?_⟩
  rw [List.filterMap_append, List.filterMap_cons_some carried, List.filterMap_nil]
  exact BoundedSet.apply_standing stands applied

theorem step_invariant (s : System) (event : Event) (inv : Invariant s) :
    ∃ t, s.step event = .ok t ∧ Invariant t := by
  obtain ⟨registry, owned, represents, stands⟩ := inv
  cases event with
  | linkUpDown name flags =>
      obtain ⟨t, started, represents', _⟩ := linkUpDown_started represents name flags
      exact ⟨_, step_recorded (step_linkUpDown started), kept_standing stands represents' rfl⟩
  | updateScript input =>
      cases asked : input.op with
      | some op =>
          cases updateScript_asked represents asked with
          | done t registry' owned' returned applied represents' =>
              exact ⟨_, step_recorded (step_updateScript returned),
                applied_standing stands applied represents' asked⟩
          | refused t error owned' returned failed represents' unchanged =>
              exact ⟨_, step_recorded (step_updateScript returned),
                kept_standing stands represents' rfl⟩
      | none =>
          obtain ⟨t, error, returned, represents', _⟩ := updateScript_ignored represents asked
          refine ⟨_, step_recorded (step_updateScript returned),
            kept_standing stands represents' ?_⟩
          cases error with
          | none => exact asked
          | some message => rfl

theorem registry_bounded_ordered_set (events : List Event) :
    ∃ s paths, run events = .ok s ∧ BoundedOrderedSet s paths := by
  obtain ⟨s, completed, registry, owned, represents, stands⟩ :=
    Runs.run_completes Invariant step_invariant events initial_invariant
  refine ⟨s, registry.elems, completed, ?_⟩
  constructor
  case holds => exact holds_of_represents represents
  case bounded => exact registry.bounded
  case nodup => exact registry.nodup
  case standing => exact stands
  case add =>
    intro path
    cases updateScript_add represents path with
    | done t registry' owned' returned applied represents' =>
        refine ⟨t, none, step_updateScript returned, ?_⟩
        exact iff_of_true rfl (BoundedSet.add_eq_some.mp applied).1
    | refused t error owned' returned failed represents' unchanged =>
        refine ⟨t, some error, step_updateScript returned, ?_⟩
        exact iff_of_false nofun (BoundedSet.add_eq_none.mp failed)
  case del =>
    intro path
    cases updateScript_del represents path with
    | done t registry' owned' returned applied represents' =>
        refine ⟨t, none, step_updateScript returned, ?_⟩
        exact iff_of_true rfl (BoundedSet.remove_eq_some.mp applied).1
    | refused t error owned' returned failed represents' unchanged =>
        refine ⟨t, some error, step_updateScript returned, ?_⟩
        exact iff_of_false nofun (BoundedSet.remove_eq_none.mp failed)
  case refused =>
    intro input t error failed
    obtain ⟨unchanged, owned', represents'⟩ :=
      updateScript_refused represents (updateScript_of_step failed)
    exact ⟨unchanged, holds_of_represents represents'⟩
  case link =>
    intro name flags
    obtain ⟨t, started, represents', unchanged⟩ := linkUpDown_started represents name flags
    exact ⟨t, step_linkUpDown started, unchanged, holds_of_represents represents'⟩

end LinkPulse
