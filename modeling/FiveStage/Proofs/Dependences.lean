import FiveStage.Proofs.History
import FiveStage.Proofs.Schedule.Basic

/-!
# Only dependences matter

What a run asks of a program is the numbers of its instructions, which of them load a word, and
which of them need which. Names of registers come in only where they are compared. So the runs of
two programs that agree on these three are the same run, told of two programs.
-/
namespace FiveStage

namespace Instruction

/-- The instruction with its registers renamed. -/
def rename (f : Register → Register) (i : Instruction) : Instruction :=
  { i with rd := i.rd.map f, rs := i.rs.map f, rt := i.rt.map f }

/-- The instruction without its immediate, its target and the statement it was read from. -/
def skeleton (i : Instruction) : Instruction :=
  { i with immediate := none, target := none, source := "" }

theorem reads_rename (f : Register → Register) (i : Instruction) :
    (i.rename f).reads = i.reads.map f := by
  simp only [reads, rename, Option.toList_map, List.map_append]

theorem writes_rename (f : Register → Register) (i : Instruction) :
    (i.rename f).writes = i.writes.map f := by
  unfold writes
  rw [List.map_append]
  congr 1
  · exact Option.toList_map
  · show (if i.opcode.isLoad then (i.rt.map f).toList else []) = _
    split
    · exact Option.toList_map
    · rfl

/-- Two registers have the same name after a renaming only if they had it before. -/
theorem dependsOn_rename {f : Register → Register} (hf : Function.Injective f)
    (reader writer : Instruction) :
    (reader.rename f).dependsOn (writer.rename f) = reader.dependsOn writer := by
  have hmem (r : Register) : f r ∈ writer.writes.map f ↔ r ∈ writer.writes :=
    List.mem_map_of_injective hf
  simp only [dependsOn, reads_rename, writes_rename, List.any_map, Function.comp_def,
    List.contains_eq_mem, hmem]

end Instruction

namespace Program

/-- The instruction at the place loads a word. -/
def loadsWord (program : Program) (i : Nat) : Bool := program[i]?.any (·.opcode == .lw)

/-- The programs have the same numbers place by place, load words at the same places, and need the
same places at each place. -/
structure Alike (p q : Program) : Prop where
  ids : p.ids = q.ids
  loadsWord : ∀ i, p.loadsWord i = q.loadsWord i
  needs : ∀ i j, p.needs i j = q.needs i j

theorem loadsWord_of_length_le {program : Program} {i : Nat} (h : program.length ≤ i) :
    program.loadsWord i = false := by
  rw [loadsWord, List.getElem?_eq_none h, Option.any_none]

theorem lt_length_of_needs {program : Program} {i j : Nat} (h : program.needs i j = true) :
    i < program.length ∧ j < program.length := by
  obtain ⟨_, _, hi, hj, _⟩ := (program.needs_iff i j).mp h
  exact ⟨(List.getElem?_eq_some_iff.mp hi).1, (List.getElem?_eq_some_iff.mp hj).1⟩

/-- Beyond the last place there is nothing to compare. -/
theorem alike_iff (p q : Program) : p.Alike q ↔
    p.ids = q.ids ∧ (∀ i < p.length, p.loadsWord i = q.loadsWord i) ∧
      ∀ i < p.length, ∀ j < p.length, p.needs i j = q.needs i j := by
  constructor
  · intro h
    exact ⟨h.ids, fun i _ => h.loadsWord i, fun i _ j _ => h.needs i j⟩
  · rintro ⟨hids, hloads, hneeds⟩
    have hlength : p.length = q.length := by rw [← p.length_ids, hids, length_ids]
    refine ⟨hids, fun i => ?_, fun i j => ?_⟩
    · by_cases hi : i < p.length
      · exact hloads i hi
      · have hle : p.length ≤ i := Nat.le_of_not_lt hi
        rw [loadsWord_of_length_le hle, loadsWord_of_length_le (hlength ▸ hle)]
    · by_cases hij : i < p.length ∧ j < p.length
      · exact hneeds i hij.1 j hij.2
      · have hp : ¬ p.needs i j = true := fun hyes => hij (lt_length_of_needs hyes)
        have hq : ¬ q.needs i j = true := fun hyes => hij (hlength ▸ lt_length_of_needs hyes)
        rw [Bool.eq_false_iff.mpr hp, Bool.eq_false_iff.mpr hq]

instance (p q : Program) : Decidable (p.Alike q) := decidable_of_iff' _ (p.alike_iff q)

/-- Two instructions at one place of two programs. -/
def Opposite (p q : Program) (x y : Instruction) : Prop :=
  ∃ i : Nat, p[i]? = some x ∧ q[i]? = some y

section Alike

variable {p q : Program}

theorem Alike.length (h : p.Alike q) : p.length = q.length := by
  rw [← p.length_ids, h.ids, length_ids]

theorem Alike.refl (p : Program) : p.Alike p := ⟨rfl, fun _ => rfl, fun _ _ => rfl⟩

theorem Alike.trans {r : Program} (hpq : p.Alike q) (hqr : q.Alike r) : p.Alike r where
  ids := hpq.ids.trans hqr.ids
  loadsWord i := (hpq.loadsWord i).trans (hqr.loadsWord i)
  needs i j := (hpq.needs i j).trans (hqr.needs i j)

theorem Alike.symm (h : p.Alike q) : q.Alike p where
  ids := h.ids.symm
  loadsWord i := (h.loadsWord i).symm
  needs i j := (h.needs i j).symm

/-- What changes neither numbers nor opcodes nor dependences cannot be told from the program. -/
theorem alike_map (p : Program) {f : Instruction → Instruction} (hid : ∀ x, (f x).id = x.id)
    (hopcode : ∀ x, (f x).opcode = x.opcode)
    (hdepends : ∀ x y, (f x).dependsOn (f y) = x.dependsOn y) : p.Alike (p.map f) where
  ids := by
    rw [ids, ids, List.map_map]
    exact List.map_congr_left fun x _ => (hid x).symm
  loadsWord i := by
    simp only [loadsWord, List.getElem?_map, Option.any_map, hopcode]
  needs i j := by
    simp only [needs, List.getElem?_map, Option.any_map, hdepends]

theorem alike_of_skeleton (h : p.map Instruction.skeleton = q.map Instruction.skeleton) :
    p.Alike q := by
  have hp : p.Alike (p.map Instruction.skeleton) :=
    p.alike_map (fun _ => rfl) (fun _ => rfl) fun _ _ => rfl
  have hq : q.Alike (q.map Instruction.skeleton) :=
    q.alike_map (fun _ => rfl) (fun _ => rfl) fun _ _ => rfl
  exact hp.trans (h ▸ hq.symm)

theorem alike_rename (p : Program) {f : Register → Register} (hf : Function.Injective f) :
    p.Alike (p.map (Instruction.rename f)) :=
  p.alike_map (fun _ => rfl) (fun _ => rfl) (Instruction.dependsOn_rename hf)

theorem lookup_eq (program : Program) (id : InstructionId) :
    program.lookup id = (program.ids.findIdx? (· == id)).bind fun i => program[i]? := by
  rw [lookup, List.find?_eq_bind_findIdx?_getElem?, ids, List.findIdx?_map]
  rfl

/-- A number stands for instructions at the same place, or for none in both. -/
theorem Alike.lookup_cases (h : p.Alike q) (id : InstructionId) :
    p.lookup id = none ∧ q.lookup id = none ∨
      ∃ x y, p.lookup id = some x ∧ q.lookup id = some y ∧ Opposite p q x y := by
  rw [lookup_eq, lookup_eq, ← h.ids]
  cases p.ids.findIdx? (· == id) with
  | none => exact .inl ⟨rfl, rfl⟩
  | some i =>
    by_cases hlt : i < p.length
    · have hx := List.getElem?_eq_getElem hlt
      have hy := List.getElem?_eq_getElem (h.length ▸ hlt)
      exact .inr ⟨p[i], _, hx, hy, i, hx, hy⟩
    · have hle : p.length ≤ i := Nat.le_of_not_lt hlt
      exact .inl ⟨List.getElem?_eq_none hle, List.getElem?_eq_none (h.length ▸ hle)⟩

variable {x y x' y' : Instruction}

theorem Alike.id_eq (h : p.Alike q) (hxy : Opposite p q x y) : x.id = y.id := by
  obtain ⟨i, hx, hy⟩ := hxy
  have hsame := congrArg (fun ids => ids[i]?) h.ids
  simp only [ids_of_getElem? hx, ids_of_getElem? hy, Option.some.injEq] at hsame
  exact hsame

theorem Alike.resolve_eq (h : p.Alike q) (hxy : Opposite p q x y) (config : Config)
    (stage : Stage) : Hazard.resolve config stage x = Hazard.resolve config stage y := by
  have hid := h.id_eq hxy
  obtain ⟨i, hx, hy⟩ := hxy
  have hload := h.loadsWord i
  rw [Program.loadsWord, Program.loadsWord, hx, hy, Option.any_some, Option.any_some] at hload
  have hstall : config.stallCycles x.opcode = config.stallCycles y.opcode := by
    unfold Config.stallCycles
    rw [Bool.eq_iff_iff, beq_iff_eq, beq_iff_eq] at hload
    exact if_congr hload rfl rfl
  rw [Hazard.resolve, Hazard.resolve, hid, hstall]

theorem Alike.dependsOn_eq (h : p.Alike q) (hreader : Opposite p q x y)
    (hwriter : Opposite p q x' y') : x.dependsOn x' = y.dependsOn y' := by
  obtain ⟨i, hx, hy⟩ := hreader
  obtain ⟨j, hx', hy'⟩ := hwriter
  have hneeds := h.needs i j
  simp only [Program.needs, hx, hy, hx', hy', Option.any_some] at hneeds
  exact hneeds

/-- A slot conflicts with readers at the same place alike, and is resolved alike. -/
theorem Alike.conflict?_eq (h : p.Alike q) (hreader : Opposite p q x y) (config : Config)
    (stage : Stage) (slot : Slot) :
    (Hazard.conflict? p x slot).map (Hazard.resolve config stage) =
      (Hazard.conflict? q y slot).map (Hazard.resolve config stage) := by
  unfold Hazard.conflict?
  cases slot.instruction with
  | none => rfl
  | some id =>
    dsimp only
    rw [h.id_eq hreader]
    by_cases hself : id = y.id
    · rw [if_pos hself, if_pos hself]
    · rw [if_neg hself, if_neg hself]
      obtain ⟨hp, hq⟩ | ⟨x', y', hp, hq, hwriter⟩ := h.lookup_cases id
      · rw [hp, hq]
        rfl
      · rw [hp, hq, Option.filter_some, Option.filter_some, h.dependsOn_eq hreader hwriter]
        split
        · rw [Option.map_some, Option.map_some, h.resolve_eq hwriter]
        · rfl

/-- The detector finds the same hazard, whatever slots it is given. -/
theorem Alike.detect_eq (h : p.Alike q) (config : Config) (consumer : InstructionId)
    (slots : List (Stage × Slot)) :
    Hazard.detect config p consumer slots = Hazard.detect config q consumer slots := by
  unfold Hazard.detect
  obtain ⟨hp, hq⟩ | ⟨x, y, hp, hq, hreader⟩ := h.lookup_cases consumer
  · rw [hp, hq]
  · rw [hp, hq]
    dsimp only
    congr 2
    funext ⟨stage, slot⟩
    exact h.conflict?_eq hreader config stage slot

end Alike

end Program

namespace State

variable {p q : Program}

theorem moveOn_of_alike (h : p.Alike q) (config : Config) (s : State) :
    s.moveOn config p = s.moveOn config q := by
  have hhazard : s.pipeline.shift.hazard config p = s.pipeline.shift.hazard config q := by
    unfold Pipeline.hazard
    split
    · exact h.detect_eq config _ _
    · rfl
  have hnext : p[s.fetched]?.map (·.id) = q[s.fetched]?.map (·.id) := by
    rw [← Program.getElem?_ids, ← Program.getElem?_ids, h.ids]
  simp only [moveOn, hhazard, hnext]

/-- A cycle is the same for both programs. -/
theorem advance_of_alike (h : p.Alike q) (config : Config) (s : State) :
    s.advance config p = s.advance config q := by
  have hdone (t : State) : t.isDone p = t.isDone q := by rw [isDone, isDone, h.length]
  unfold advance
  rw [moveOn_of_alike h]
  simp only [hdone]

end State

namespace Notification

/-- The same news of another program. -/
def retold (q : Program) (n : Notification) : Notification := { n with program := q }

end Notification

namespace Simulator

section Retold

variable {σ : Type} (q : Program) (s : Simulator σ)

/-- The simulator as it would be with another program all along. -/
def retold : Simulator σ := { s with program := q, log := s.log.map (Notification.retold q) }

theorem notify_retold : (s.retold q).notify = s.notify.retold q := by
  simp only [notify, retold, List.map_append, List.map_map]
  rfl

theorem advance_retold (h : s.program.Alike q) :
    (s.retold q).advance = (s.advance.1, s.advance.2.retold q) := by
  have hcycle : (s.retold q).state.advance (s.retold q).config (s.retold q).program =
      s.state.advance s.config s.program := (State.advance_of_alike h s.config s.state).symm
  unfold advance
  rw [hcycle]
  split
  · rfl
  · next outcome state _ _ =>
    exact congrArg (Prod.mk outcome) (notify_retold q { s with state })

variable [TickSource σ]

theorem release_retold : (s.retold q).release = s.release.retold q := by
  have hpending : (s.retold q).pending = s.pending := rfl
  unfold release
  rw [hpending]
  cases s.pending <;> rfl

theorem arm_retold : (s.retold q).arm = s.arm.retold q := by
  unfold arm
  rw [release_retold]
  rfl

theorem init_retold : (s.retold q).init = s.init.retold q := by
  unfold init
  rw [release_retold]
  exact notify_retold q { s.release with state := .initial }

theorem start_retold : (s.retold q).start = (s.start.1, s.start.2.retold q) := by
  have hstate : (s.retold q).state = s.state := rfl
  unfold start
  rw [hstate]
  by_cases hrunning : s.state.status = .running
  · rw [if_pos hrunning, if_pos hrunning]
  · rw [if_neg hrunning, if_neg hrunning]
    cases s.state.moveTo? .running with
    | none => rfl
    | some state =>
      have harm := arm_retold q { s with state }
      have hnotify := notify_retold q ({ s with state } : Simulator σ).arm
      exact congrArg (Prod.mk true) ((congrArg notify harm).trans hnotify)

theorem pause_retold : (s.retold q).pause = s.pause.retold q := by
  unfold pause
  rw [release_retold]
  exact notify_retold q { s.release with state := s.release.state.halt }

theorem step_retold (h : s.program.Alike q) :
    (s.retold q).step = (s.step.1, s.step.2.retold q) := by
  unfold step
  show advance (if s.state.status = .running then (s.retold q).pause else s.retold q) = _
  by_cases hrunning : s.state.status = .running
  · rw [if_pos hrunning, if_pos hrunning, pause_retold]
    exact advance_retold q s.pause (s.program_pause ▸ h)
  · rw [if_neg hrunning, if_neg hrunning]
    exact advance_retold q s h

theorem rearm_retold :
    (if s.state.status = .running then (s.retold q).arm else s.retold q) =
      (if s.state.status = .running then s.arm else s).retold q := by
  split
  · exact s.arm_retold q
  · rfl

theorem onTick_retold (h : s.program.Alike q) (handle : TickHandle) :
    (s.retold q).onTick handle = ((s.onTick handle).1, (s.onTick handle).2.retold q) := by
  have hsame : (s.retold q).pending = s.pending := rfl
  have hstatus : (s.retold q).state = s.state := rfl
  by_cases hpending : s.pending = some handle
  · by_cases hrunning : s.state.status = .running
    · rw [onTick_eq hpending hrunning, onTick_eq (hsame ▸ hpending) (hstatus ▸ hrunning)]
      have hcycle : (s.retold q).used.advance = (s.used.advance.1, s.used.advance.2.retold q) :=
        s.used.advance_retold q h
      rw [hcycle]
      exact congrArg (Prod.mk s.used.advance.1) (rearm_retold q s.used.advance.2)
    · rw [onTick, onTick, hsame, if_pos hpending, if_pos hpending]
      dsimp only
      rw [hstatus, if_neg hrunning, if_neg hrunning]
      rfl
  · rw [onTick, onTick, hsame, if_neg hpending, if_neg hpending]

end Retold

section Runs

variable {q : Program} {s : Simulator TickQueue}

/-- Only a load changes the program. -/
theorem program_perform_of_ne_load {action : Action} (hload : ∀ source, action ≠ .load source) :
    (s.perform action).2.program = s.program := by
  cases action with
  | init => exact s.program_release
  | reset => exact s.program_release
  | load source => exact absurd rfl (hload source)
  | _ => exact s.program_perform _ rfl

theorem perform_retold (h : s.program.Alike q) {action : Action}
    (hload : ∀ source, action ≠ .load source) :
    (s.retold q).perform action = ((s.perform action).1, (s.perform action).2.retold q) := by
  cases action with
  | start =>
    simp only [perform, start_retold]
  | pause => exact congrArg (Prod.mk Answer.done) (s.pause_retold q)
  | step => simp only [perform, s.step_retold q h]
  | advance => simp only [perform, s.advance_retold q h]
  | deliver handle => simp only [perform, s.onTick_retold q h handle]
  | init => exact congrArg (Prod.mk Answer.done) (s.init_retold q)
  | reset => exact congrArg (Prod.mk Answer.done) (s.init_retold q)
  | load source => exact absurd rfl (hload source)
  | observe => rfl
  | schedule => rfl
  | cancel handle => rfl
  | fire => rfl

theorem performAll_retold (actions : List Action) (h : s.program.Alike q)
    (hload : ∀ source, .load source ∉ actions) :
    (s.retold q).performAll actions =
      ((s.performAll actions).1, (s.performAll actions).2.retold q) := by
  induction actions generalizing s with
  | nil => rfl
  | cons action rest ih =>
    have hfirst (source : String) : action ≠ .load source := by
      intro heq
      exact hload source (heq ▸ List.mem_cons_self)
    have hrest (source : String) : .load source ∉ rest :=
      fun hin => hload source (List.mem_cons_of_mem _ hin)
    have hnext : (s.perform action).2.program.Alike q := by
      rw [program_perform_of_ne_load hfirst]
      exact h
    simp only [performAll, perform_retold h hfirst, ih hnext hrest]

end Runs

/-- Nobody can tell the runs of two programs apart: the answers are the same, the simulators are in
the same state with the same ticks and figures, and their observers heard the same, each of its own
program. -/
structure SameRuns (config : Config) (p q : Program) (actions : List Action) : Prop where
  answers : ((new config p).performAll actions).1 = ((new config q).performAll actions).1
  state : (ofActions config p actions).state = (ofActions config q actions).state
  pending : (ofActions config p actions).pending = (ofActions config q actions).pending
  ticks : (ofActions config p actions).ticks = (ofActions config q actions).ticks
  metrics : (ofActions config p actions).metrics = (ofActions config q actions).metrics
  heard : (ofActions config p actions).log.map (fun n => (n.observer, n.state)) =
    (ofActions config q actions).log.map fun n => (n.observer, n.state)
  told : (∀ n ∈ (ofActions config p actions).log, n.program = p) ∧
    ∀ n ∈ (ofActions config q actions).log, n.program = q

section Alike

variable {p q : Program} {actions : List Action} (config : Config) (h : p.Alike q)
  (hload : ∀ source, .load source ∉ actions)
include h hload

theorem performAll_of_alike : (new config q).performAll actions =
    (((new config p).performAll actions).1, (ofActions config p actions).retold q) :=
  performAll_retold (s := new config p) actions h hload

theorem ofActions_of_alike :
    ofActions config q actions = (ofActions config p actions).retold q :=
  congrArg Prod.snd (performAll_of_alike config h hload)

theorem program_of_alike : (ofActions config q actions).program = q :=
  congrArg Simulator.program (ofActions_of_alike config h hload)

theorem told_of_alike : ∀ n ∈ (ofActions config q actions).log, n.program = q := by
  intro n hn
  rw [ofActions_of_alike config h hload] at hn
  obtain ⟨_, _, rfl⟩ := List.mem_map.mp hn
  rfl

theorem metrics_of_alike :
    (ofActions config p actions).metrics = (ofActions config q actions).metrics := by
  have hlength : (ofActions config p actions).program.length = q.length := by
    rw [program_of_alike config (.refl p) hload, h.length]
  rw [ofActions_of_alike config h hload, metrics, hlength]
  rfl

theorem heard_of_alike :
    (ofActions config p actions).log.map (fun n => (n.observer, n.state)) =
      (ofActions config q actions).log.map fun n => (n.observer, n.state) := by
  rw [ofActions_of_alike config h hload, retold, List.map_map]
  rfl

theorem sameRuns_of_alike : SameRuns config p q actions where
  answers := (congrArg Prod.fst (performAll_of_alike config h hload)).symm
  state := (congrArg Simulator.state (ofActions_of_alike config h hload)).symm
  pending := (congrArg Simulator.pending (ofActions_of_alike config h hload)).symm
  ticks := (congrArg Simulator.ticks (ofActions_of_alike config h hload)).symm
  metrics := metrics_of_alike config h hload
  heard := heard_of_alike config h hload
  told := ⟨told_of_alike config (.refl p) hload, told_of_alike config h hload⟩

end Alike

/-- Without a load a run depends on its program by the numbers, the places that load a word and the
places that need each other, and on nothing else: two programs that agree on these have the same
runs. So it is if the registers are renamed without making two of them one, and immediates, targets
and statements are changed at will. -/
theorem only_dependences_matter (config : Config) (p : Program) (actions : List Action)
    (hload : ∀ source, .load source ∉ actions) :
    (∀ q, p.Alike q → SameRuns config p q actions) ∧
      ∀ (f : Register → Register) (q : Program), Function.Injective f →
        q.map Instruction.skeleton = p.map (fun i => (i.rename f).skeleton) →
          SameRuns config p q actions := by
  refine ⟨fun q h => sameRuns_of_alike config h hload, fun f q hf hskeleton => ?_⟩
  have hrenamed : p.Alike (p.map (Instruction.rename f)) := p.alike_rename hf
  have hchanged : Program.Alike (p.map (Instruction.rename f)) q := by
    apply Program.alike_of_skeleton
    rw [List.map_map, hskeleton]
    rfl
  exact sameRuns_of_alike config (hrenamed.trans hchanged) hload

/-- The second and the third instruction have one number. Both runs stall, before a reset and after
it. -/
theorem only_dependences_matter_across_opcodes :
    let p : Program :=
      [{ id := 1, opcode := .lw, rt := some ⟨"R1"⟩, rs := some ⟨"R0"⟩, immediate := some 4 },
       { id := 2, opcode := .add, rd := some ⟨"R2"⟩, rs := some ⟨"R1"⟩, rt := some ⟨"R1"⟩ },
       { id := 2, opcode := .or, rd := some ⟨"R3"⟩, rs := some ⟨"R2"⟩, rt := some ⟨"R2"⟩ }]
    let q : Program :=
      [{ id := 1, opcode := .lw, rt := some ⟨"T0"⟩, rs := some ⟨"SP"⟩, source := "lw $t0, 8($sp)" },
       { id := 2, opcode := .sub, rd := some ⟨"T1"⟩, rs := some ⟨"S0"⟩, rt := some ⟨"T0"⟩ },
       { id := 2, opcode := .beq, rs := some ⟨"T1"⟩, rt := some ⟨"T2"⟩, target := some "loop" }]
    let actions : List Action :=
      [.observe, .start, .fire, .deliver 1, .fire, .deliver 2, .fire, .deliver 3, .reset, .start,
       .step, .step, .step, .pause]
    p.Alike q ∧ (∀ source, .load source ∉ actions) ∧
      (ofActions .standard p actions).state.events.length = 1 ∧
      SameRuns .standard p q actions := by
  intro p q actions
  have halike : p.Alike q := by decide
  have hload : ∀ source, .load source ∉ actions := by
    intro source hin
    simp [actions] at hin
  exact ⟨halike, hload, by decide +kernel,
    (only_dependences_matter .standard p actions hload).1 q halike⟩

end Simulator

end FiveStage
