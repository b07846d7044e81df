import MemoryTrace.Proofs.Memory.Copies

namespace MemoryTrace

/-- Pushes some events, one after the other. -/
def EventLog.pushAll (log : EventLog) (events : List Event) : EventLog := events.foldl push log

/-- Pushing events in two parts comes to pushing them all. -/
theorem EventLog.pushAll_append (log : EventLog) (first second : List Event) :
    log.pushAll (first ++ second) = (log.pushAll first).pushAll second :=
  List.foldl_append

/-- How a leak is told of. -/
def Block.leakEvent (b : Block) (time : Nat) : Event :=
  { kind := .leak, block := b.id, description := s!"leak: {b.name} ({b.size} bytes) is unreachable", time }

namespace Memory

variable {m : Memory}

/-- The same memory with another log. -/
def withLog (m : Memory) (log : EventLog) : Memory := { m with events := log }

/-- A report pushes one event for each leak. -/
theorem reportLeaks_eq (m : Memory) :
    m.reportLeaks = m.withLog (m.events.pushAll (m.leakedBlocks.map (·.leakEvent m.clock))) := by
  unfold reportLeaks
  induction m.leakedBlocks generalizing m with
  | nil => rfl
  | cons b rest ih =>
    rw [List.foldl_cons, ih]
    rfl

/-- The number is given out. -/
def Knows (m : Memory) (id : BlockId) : Prop := 0 < id ∧ id < m.nextId

/-- The numbers of blocks on record are given out. -/
theorem Sound.knows (sound : m.Sound) {b : Block} (member : b ∈ m.blocks) : m.Knows b.id := by
  have counted : b.id ∈ List.range' 1 m.blocks.length := sound.numbered ▸ List.mem_map_of_mem member
  exact ⟨(List.mem_range'_1.mp counted).1, sound.id_lt_next member⟩

theorem Sound.nextId_pos (sound : m.Sound) : 0 < m.nextId := sound.next ▸ Nat.succ_pos _

/-- Whatever the log of `m` is, `f` does the same and pushes the events `more`. -/
structure Appends (m : Memory) (f : Memory → Memory) (more : List Event) : Prop where
  blind : ∀ log, f (m.withLog log) = (f m).withLog (log.pushAll more)
  clock : (f m).clock = m.clock
  grows : m.nextId ≤ (f m).nextId
  timed : ∀ e ∈ more, e.time = m.clock
  known : ∀ e ∈ more, (f m).Knows e.block

/-- Whatever the log of `m` is, `f` does the same and pushes the same events. -/
def Logs (m : Memory) (f : Memory → Memory) : Prop := ∃ more, m.Appends f more

theorem Appends.events {f : Memory → Memory} {more : List Event} (appends : m.Appends f more) :
    (f m).events = m.events.pushAll more :=
  congrArg Memory.events (appends.blind m.events)

namespace Logs

variable {f g : Memory → Memory}

theorem refl (m : Memory) : m.Logs fun m => m := ⟨[], fun _ => rfl, rfl, Nat.le_refl _, nofun, nofun⟩

/-- What logs the same events on any log does so also one after the other. -/
theorem comp (first : m.Logs f) (second : (f m).Logs g) : m.Logs fun m => g (f m) := by
  obtain ⟨more, first⟩ := first
  obtain ⟨others, second⟩ := second
  refine ⟨more ++ others, fun log => ?_, second.clock.trans first.clock, Nat.le_trans first.grows second.grows, ?_, ?_⟩
  · rw [first.blind, second.blind, EventLog.pushAll_append]
  · intro e new
    rcases List.mem_append.mp new with before | after
    · exact first.timed e before
    · exact (second.timed e after).trans first.clock
  · intro e new
    rcases List.mem_append.mp new with before | after
    · exact ⟨(first.known e before).1, Nat.lt_of_lt_of_le (first.known e before).2 second.grows⟩
    · exact second.known e after

/-- Only what `f` does on this memory counts. -/
theorem congr (logs : m.Logs g) (same : ∀ log, f (m.withLog log) = g (m.withLog log)) : m.Logs f := by
  obtain ⟨more, appends⟩ := logs
  have here : f m = g m := same m.events
  refine ⟨more, fun log => ?_, here ▸ appends.clock, here ▸ appends.grows, appends.timed, here ▸ appends.known⟩
  rw [same, appends.blind, here]

/-- What does not look at the log and leaves it alone. -/
theorem silent (blind : ∀ log, f (m.withLog log) = (f m).withLog log) (clock : (f m).clock = m.clock)
    (grows : m.nextId ≤ (f m).nextId) : m.Logs f :=
  ⟨[], blind, clock, grows, nofun, nofun⟩

/-- What does not look at the log and pushes one event, stamped with the time and about a block on record. -/
theorem single (e : Event) (blind : ∀ log, f (m.withLog log) = (f m).withLog (log.push e))
    (clock : (f m).clock = m.clock) (grows : m.nextId ≤ (f m).nextId) (timed : e.time = m.clock)
    (known : (f m).Knows e.block) : m.Logs f :=
  ⟨[e], blind, clock, grows, List.forall_mem_singleton.mpr timed, List.forall_mem_singleton.mpr known⟩

theorem pushStack (m : Memory) (name : String) (size : Nat) (content : Content) :
    m.Logs (·.pushStack name size content) :=
  silent (fun _ => rfl) rfl (Nat.le_succ _)

theorem pushHeap (m : Memory) (name : String) (size : Nat) (discipline : Discipline) (content : Content) :
    m.Logs (·.pushHeap name size discipline content) :=
  silent (fun _ => rfl) rfl (Nat.le_succ _)

variable (logs : m.Logs f)

include logs

theorem knows {id : BlockId} (known : m.Knows id) : (f m).Knows id := by
  obtain ⟨_, appends⟩ := logs
  exact ⟨known.1, Nat.lt_of_lt_of_le known.2 appends.grows⟩

theorem update (id : BlockId) (change : Block → Block) : m.Logs fun m => (f m).update id change :=
  logs.comp (g := (·.update id change)) (silent (fun _ => rfl) rfl (Nat.le_refl _))

/-- An event about a block on record may follow. -/
theorem record {id : BlockId} (known : (f m).Knows id) (kind : EventKind) (description : String) :
    m.Logs fun m => (f m).record kind id description :=
  logs.comp (g := (·.record kind id description))
    (single { kind, block := id, description, time := (f m).clock } (fun _ => rfl) rfl (Nat.le_refl _) rfl known)

theorem free {b : Block} (known : (f m).Knows b.id) (reason : String) : m.Logs fun m => (f m).free b reason :=
  logs.comp (g := (·.free b reason)) (single
    { kind := if b.isObject then .destruct else .deallocate, block := b.id
      description := s!"{b.name} {reason}", time := (f m).clock }
    (fun _ => rfl) rfl (Nat.le_refl _) rfl known)

omit logs

/-- A new block is logged under the number it is given. -/
theorem create (sound : m.Sound) (logs : m.Logs f) (number : (f m).nextId = m.nextId + 1) (kind : EventKind)
    (description : String) : m.Logs fun m => (f m).record kind m.nextId description :=
  (logs.record ⟨sound.nextId_pos, number ▸ Nat.lt_succ_self _⟩ kind description).congr fun _ => rfl

/-- A release logs the new count, and the death of the block after its last owner. -/
theorem release (sound : m.Sound) (id : BlockId) : m.Logs (·.release id) := by
  have stays (same : ∀ log, (m.withLog log).release id = m.withLog log) : m.Logs (·.release id) :=
    (refl m).congr same
  have look (log : EventLog) : (m.withLog log).block? id = m.block? id := rfl
  cases found : m.block? id with
  | none => exact stays fun log => by simp only [Memory.release, look, found]
  | some b =>
    obtain ⟨member, rfl⟩ := block?_some found
    have known := sound.knows member
    cases live : b.live with
    | false => exact stays fun log => by simp only [Memory.release, look, found, live]
    | true =>
      match counts : b.owners? with
      | none | some 0 => exact stays fun log => by simp only [Memory.release, look, found, live, counts]
      | some (owners + 1) =>
        have counted := ((refl m).update b.id (Block.countOwners fun _ => owners)).record known .assign
          s!"ref count of {b.name} is now {owners}"
        by_cases last : owners = 0
        · refine (counted.free (counted.knows known) "freed (last shared owner gone)").congr fun log => ?_
          simp only [Memory.release, look, found, live, counts, if_pos last]
        · refine counted.congr fun log => ?_
          simp only [Memory.release, look, found, live, counts, if_neg last]

theorem leaveTarget (sound : m.Sound) (p : Pointer) : m.Logs (·.leaveTarget p) := by
  unfold Memory.leaveTarget
  split
  · exact release sound _
  · exact refl m

/-- Leaving the old target is the first step, and the others take no look at what that has logged. -/
theorem reaim (sound : m.Sound) {b : Block} (member : b ∈ m.blocks) (p : Pointer) (target : Option BlockId) :
    m.Logs (·.reaim b p target) := by
  have left := leaveTarget sound p
  have known := left.knows (sound.knows member)
  cases target with
  | none => exact (left.update b.id (·.aim none)).record known .assign s!"{b.name} = nullptr"
  | some id =>
    have aimed := left.update b.id (·.aim (some id))
    have blind (log : EventLog) : ∃ other, (m.withLog log).leaveTarget p = (m.leaveTarget p).withLog other := by
      obtain ⟨_, appends⟩ := left
      exact ⟨_, appends.blind log⟩
    by_cases joins : p.discipline = .shared ∧ (m.leaveTarget p).blocks.any (·.sharesOwnershipOf id)
    · let owned := ((m.leaveTarget p).update b.id (·.aim (some id))).retain id
      refine ((aimed.update id (Block.countOwners (· + 1))).record known .assign
        s!"{b.name} -> {owned.nameOf id}").congr fun log => ?_
      obtain ⟨other, same⟩ := blind log
      have look : ((m.leaveTarget p).withLog other).blocks = (m.leaveTarget p).blocks := rfl
      simp only [Memory.reaim, same, look, if_pos joins]
      rfl
    · let owned := (m.leaveTarget p).update b.id (·.aim (some id))
      refine (aimed.record known .assign s!"{b.name} -> {owned.nameOf id}").congr fun log => ?_
      obtain ⟨other, same⟩ := blind log
      have look : ((m.leaveTarget p).withLog other).blocks = (m.leaveTarget p).blocks := rfl
      simp only [Memory.reaim, same, look, if_neg joins]
      rfl

theorem pushCopy (sound : m.Sound) (b : Block) (p : Pointer) (name : String) : m.Logs (·.pushCopy b p name) := by
  have pushed := pushStack m name pointerSize (.pointer p)
  have known : (m.pushStack name pointerSize (.pointer p)).Knows m.nextId := ⟨sound.nextId_pos, Nat.lt_succ_self _⟩
  cases aimed : p.target with
  | none =>
    refine (pushed.record known .copy s!"shared_ptr copy {name} <- {b.name} (empty)").congr fun log => ?_
    simp only [Memory.pushCopy, aimed]
    rfl
  | some id =>
    have shared := pushed.update id (Block.countOwners (· + 1))
    let owners := (((((m.pushStack name pointerSize (.pointer p)).retain id).block? id).bind (·.owners?))).getD 0
    refine (shared.record known .copy s!"shared_ptr copy {name} <- {b.name} (ref count {owners})").congr fun log => ?_
    simp only [Memory.pushCopy, aimed]
    rfl

/-- A report logs the leaks, and all of these are on record. -/
theorem reportLeaks (sound : m.Sound) : m.Logs (·.reportLeaks) := by
  refine ⟨m.leakedBlocks.map (·.leakEvent m.clock), fun log => ?_, ?_, ?_, fun e new => ?_, fun e new => ?_⟩
  · rw [reportLeaks_eq, reportLeaks_eq]
    rfl
  · rw [reportLeaks_eq]
    rfl
  · exact Nat.le_of_eq (reportLeaks_keeps nextId (fun _ _ _ _ => rfl) m).symm
  · obtain ⟨b, _, rfl⟩ := List.mem_map.mp new
    rfl
  · obtain ⟨b, leaked, rfl⟩ := List.mem_map.mp new
    rw [reportLeaks_eq]
    exact sound.knows (List.mem_of_mem_filter leaked)

end Logs

/-- Whatever the log of `m` is, `f` is refused for the same reason, or it goes through and only adds to the log. -/
inductive Tries (m : Memory) (f : Memory → Except MemoryError Memory) : Prop
  | refused (e : MemoryError) (same : ∀ log, f (m.withLog log) = .error e)
  | accepted {g : Memory → Memory} (same : ∀ log, f (m.withLog log) = .ok (g (m.withLog log))) (logs : m.Logs g)

namespace Tries

variable {f : Memory → Except MemoryError Memory} {g : Memory → Memory}

/-- A question that does not look at the log may come first. -/
theorem ask {α : Type} {question : Memory → Except MemoryError α} {rest : α → Memory → Except MemoryError Memory}
    (blind : ∀ log, question (m.withLog log) = question m) (each : ∀ x, question m = .ok x → m.Tries (rest x)) :
    m.Tries fun m => question m >>= fun x => rest x m := by
  cases answer : question m with
  | error e => exact .refused e fun log => by rw [blind, answer]; rfl
  | ok x =>
    cases each x answer with
    | refused e same => exact .refused e fun log => by rw [blind, answer]; exact same log
    | accepted same logs => exact .accepted (fun log => by rw [blind, answer]; exact same log) logs

theorem done (logs : m.Logs g) : m.Tries fun m => pure (g m) := .accepted (fun _ => rfl) logs

/-- Deallocating is refused or logs, whatever the log is. -/
theorem deallocate (sound : m.Sound) (id : BlockId) : m.Tries (·.deallocate id) := by
  refine ask (fun _ => rfl) fun b live => done ?_
  obtain ⟨found, _⟩ := liveBlock_eq_ok.mp live
  split
  · exact .release sound id
  · exact (Logs.refl m).free (sound.knows (block?_some found).1) _

theorem deallocateIfAny (sound : m.Sound) (target : Option BlockId) : m.Tries (·.deallocateIfAny target) := by
  cases target with
  | none => exact done (.refl m)
  | some id => exact deallocate sound id

/-- An assignment is refused or logs, whatever the log is. -/
theorem assignPointer (sound : m.Sound) (pointer : BlockId) (target : Option BlockId) :
    m.Tries (·.assignPointer pointer target) := by
  refine ask (fun _ => rfl) fun held pointer => ask (fun _ => rfl) fun _ _ => done ?_
  split
  · exact .refl m
  · exact .reaim sound (block?_some (livePointer_eq_ok.mp pointer).found).1 held.2 target

/-- What can be refused comes before what cannot. -/
theorem followed (first : m.Tries f) (rest : ∀ next, f m = .ok next → next.Logs g) :
    m.Tries fun m => f m >>= fun next => pure (g next) := by
  cases first with
  | refused e same => exact .refused e fun log => by rw [same]; rfl
  | accepted same logs => exact .accepted (fun log => by rw [same]; rfl) (logs.comp (rest _ (same m.events)))

/-- A move is refused or logs, whatever the log is. -/
theorem moveUnique (sound : m.Sound) (source dest : BlockId) : m.Tries (·.moveUnique source dest) := by
  unfold Memory.moveUnique
  split
  · exact .refused _ fun _ => rfl
  · refine ask (fun _ => rfl) fun giver _ => ask (fun _ => rfl) fun taker live => ask (fun _ => rfl) fun moved _ =>
      ask (fun _ => rfl) fun previous _ => (deallocateIfAny sound _).followed fun freed done => ?_
    have known : freed.Knows dest := by
      obtain ⟨member, rfl⟩ := block?_some (liveBlock_eq_ok.mp live).1
      rw [Knows, deallocateIfAny_nextId done]
      exact sound.knows member
    exact (((Logs.refl freed).update dest (·.aim moved)).update source (·.aim none)).record known .move
      s!"unique_ptr move {giver.name} -> {taker.name}"

end Tries

/-- Leaving a scope logs the same events on any log. -/
theorem Logs.leaveScope (sound : m.Sound) {b : Block} (member : b ∈ m.blocks) :
    m.Logs fun m => (m.leaveScope b).memory := by
  have popped := (Logs.refl m).free (sound.knows member) "goes out of scope"
  have below := sound.free b "goes out of scope"
  have blind (log : EventLog) : ∃ other,
      (m.withLog log).free b "goes out of scope" = (m.free b "goes out of scope").withLog other := ⟨_, rfl⟩
  unfold Memory.leaveScope
  dsimp only
  split
  · rename_i id _ _
    cases Tries.deallocate below id with
    | refused e same =>
      refine (popped.update b.id (·.aim none)).congr fun log => ?_
      obtain ⟨other, free⟩ := blind log
      simp only [free, same]
    | accepted same logs =>
      refine ((popped.comp logs).update b.id (·.aim none)).congr fun log => ?_
      obtain ⟨other, free⟩ := blind log
      simp only [free, same]
  · exact (popped.comp (release below _)).update b.id (·.aim none)
  · exact popped

/-- Whatever the log of `m` is, `f` answers the same and pushes the same events. -/
structure Steady (m : Memory) (f : Memory → Reply × Memory) : Prop where
  reply : ∀ log, (f (m.withLog log)).1 = (f m).1
  logs : m.Logs fun m => (f m).2

namespace Steady

variable {f : Memory → Reply × Memory} {g : Memory → Memory}

theorem intro (reply : Reply) (logs : m.Logs g) (same : ∀ log, f (m.withLog log) = (reply, g (m.withLog log))) :
    m.Steady f := by
  have here : f m = (reply, g m) := same m.events
  exact ⟨fun log => by rw [same, here], logs.congr fun log => by rw [same]⟩

/-- An operation that may be refused answers the same on any log. -/
theorem settle {f : Memory → Except MemoryError Memory} (tries : m.Tries f) : m.Steady fun m => m.settle (f m) := by
  cases tries with
  | refused e same => exact intro (.refused e) (.refl m) fun log => by rw [same]; rfl
  | accepted same logs => exact intro .done logs fun log => by rw [same]; rfl

theorem copyShared (sound : m.Sound) (source : BlockId) (name : String) :
    m.Steady (·.perform (.copyShared source name)) := by
  have ask (log : EventLog) : (m.withLog log).livePointer source = m.livePointer source := rfl
  cases answer : m.livePointer source with
  | error e =>
    refine intro (.refused e) (.refl m) fun log => ?_
    simp only [perform, Memory.copyShared, ask, answer]
    rfl
  | ok held =>
    by_cases shared : held.2.discipline = .shared
    · refine intro (.created m.nextId) (.pushCopy sound held.1 held.2 name) fun log => ?_
      have made : (m.withLog log).copyShared source name =
          .ok (m.nextId, (m.withLog log).pushCopy held.1 held.2 name) := by
        rw [Memory.copyShared, ask, answer]
        exact if_pos shared
      simp only [perform, made, announce]
    · refine intro (.refused (.wrongDiscipline source .shared)) (.refl m) fun log => ?_
      have refused : (m.withLog log).copyShared source name = .error (.wrongDiscipline source .shared) := by
        rw [Memory.copyShared, ask, answer]
        exact if_neg shared
      simp only [perform, refused]

theorem endScope (sound : m.Sound) : m.Steady (·.perform .endScope) := by
  have look (log : EventLog) : (m.withLog log).stackBlocks = m.stackBlocks := rfl
  cases last : m.stackBlocks.getLast? with
  | none =>
    refine intro (.popped none) (.refl m) fun log => ?_
    simp only [perform, endScope?, look, last, Option.map_none]
  | some b =>
    have member : b ∈ m.blocks := List.mem_of_mem_filter (List.mem_of_mem_filter (List.mem_of_getLast? last))
    refine intro (.popped b.id) (.leaveScope sound member) fun log => ?_
    simp only [perform, endScope?, look, last, Option.map_some, leaveScope_popped]

end Steady

/-- Only a reset looks at the log, and only a tick takes time. -/
theorem Sound.steady_perform (sound : m.Sound) {operation : Operation} (goes_on : operation ≠ .reset)
    (timeless : operation ≠ .tick) : m.Steady (·.perform operation) := by
  cases operation with
  | createVariable name size => exact ⟨fun _ => rfl, .create sound (.pushStack m ..) rfl ..⟩
  | createPointer name discipline pointee => exact ⟨fun _ => rfl, .create sound (.pushStack m ..) rfl ..⟩
  | createObject name layout => exact ⟨fun _ => rfl, .create sound (.pushStack m ..) rfl ..⟩
  | allocate name size discipline => exact ⟨fun _ => rfl, .create sound (.pushHeap m ..) rfl ..⟩
  | allocateObject name layout discipline => exact ⟨fun _ => rfl, .create sound (.pushHeap m ..) rfl ..⟩
  | deallocate id => exact .settle (.deallocate sound id)
  | assignPointer pointer target => exact .settle (.assignPointer sound pointer target)
  | copyShared source name => exact .copyShared sound source name
  | moveUnique source dest => exact .settle (.moveUnique sound source dest)
  | endScope => exact .endScope sound
  | reportLeaks => exact ⟨fun _ => rfl, .reportLeaks sound⟩
  | tick | reset => contradiction

/-- What an operation does to the log. It starts over, or lets time go on, or it pushes events on whatever log there
is. -/
inductive Performs (m : Memory) : Operation → Prop
  | reset : Performs m .reset
  | tick : Performs m .tick
  | pushes {operation : Operation} {more : List Event} (goes_on : operation ≠ .reset)
      (reply : ∀ log, ((m.withLog log).perform operation).1 = (m.perform operation).1)
      (appends : m.Appends (fun m => (m.perform operation).2) more) : Performs m operation

/-- No operation looks at the log, and time stands still while one runs. Each pushes the same events on any log,
stamped with the clock and about blocks that are on record by then. -/
theorem Sound.performs (sound : m.Sound) (operation : Operation) : m.Performs operation := by
  by_cases starts : operation = .reset
  · exact starts ▸ .reset
  by_cases ticks : operation = .tick
  · exact ticks ▸ .tick
  obtain ⟨reply, more, appends⟩ := sound.steady_perform starts ticks
  exact .pushes starts reply appends

end Memory

end MemoryTrace
