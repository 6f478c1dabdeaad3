import RunWatch.Proofs.Board.Pruning
namespace RunWatch.Board

def acceptance? (b : Board) : Move → Option ProgressUpdate
  | .message m now => (b.receive m now).2.progress
  | _ => none

def accepted (b : Board) : List Move → List ProgressUpdate
  | [] => []
  | mv :: rest => (b.acceptance? mv).toList ++ (b.move mv).accepted rest

variable {b : Board} {sample : Sample} {run : String} {kind : Push.RunKind} {p : Push.Progress}

theorem mem_samplesOf {updates : List ProgressUpdate} (present : sample ∈ samplesOf run updates) :
    ∃ update ∈ updates, update.runId = run ∧ update.sample = sample := by
  obtain ⟨update,found,same⟩ := List.mem_map.mp present
  obtain ⟨member,named⟩ := List.mem_filter.mp found
  exact ⟨update,member,eq_of_beq named,same⟩

theorem move_history (present : sample ∈ (b.move mv).generations.samples run) :
    sample ∈ b.generations.samples run ∨
      ∃ update ∈ b.acceptance? mv, update.runId = run ∧ update.sample = sample := by
  cases mv with
  | message m now =>
    have grown := b.receive_samples m now run
    rw [show (b.move (.message m now)).generations = (b.receive m now).1.generations from rfl,grown] at present
    rcases List.mem_append.mp present with kept | brought
    · exact Or.inl kept
    · obtain ⟨update,told,named⟩ := mem_samplesOf brought
      exact Or.inr ⟨update,Option.mem_toList.mp told,named⟩
  | prune =>
    rcases b.prune_samples run with same | ⟨_,forgotten⟩
    · exact Or.inl (same ▸ present)
    · rw [show (b.move .prune).generations.samples run = [] from forgotten] at present
      cases present
  | poll p now => exact Or.inl (b.applyPoll_generations p now ▸ present)
  | evaluate c now => exact Or.inl (by cases c <;> exact present)
  | channel state => exact Or.inl present
  | remediation c result => exact Or.inl (b.recordRemediation_generations c result ▸ present)

theorem after_history {moves : List Move} (present : sample ∈ (b.after moves).generations.samples run) :
    sample ∈ b.generations.samples run ∨
      ∃ update ∈ b.accepted moves, update.runId = run ∧ update.sample = sample := by
  induction moves generalizing b with
  | nil => exact Or.inl present
  | cons mv rest ih =>
    simp only [accepted,List.mem_append,Option.mem_toList]
    rcases ih present with kept | ⟨update,later,named⟩
    · rcases move_history kept with first | ⟨update,told,named⟩
      · exact Or.inl first
      · exact Or.inr ⟨update,Or.inl told,named⟩
    · exact Or.inr ⟨update,Or.inr later,named⟩

theorem after_ascending {moves : List Move} (ascending : ∀ run, Generations.Ascending (b.generations.samples run)) :
    ∀ run, Generations.Ascending ((b.after moves).generations.samples run) := by
  induction moves generalizing b with
  | nil => exact ascending
  | cons mv rest ih => exact ih (move_ascending ascending mv)

structure Arrives (b : Board) (kind : Push.RunKind) (p : Push.Progress) (now : Int64) : Prop where
  shown : ∃ record, (b.runs kind).find? p.runId = some record ∧
    ((b.receive (.progress kind p) now).1.runs kind).find? p.runId =
      some { record with progress:=some p.shown }
  merged : (b.runs kind).Merged ((b.receive (.progress kind p) now).1.runs kind) p.runId
    fun record => { record with progress:=some p.shown }
  changed : (b.receive (.progress kind p) now).2.changed = some (runCollection kind)
  told : ∃ update, (b.receive (.progress kind p) now).2.progress = some update ∧
    update.collection = runCollection kind ∧ update.runId = p.runId ∧ update.sample = p.sample

theorem receive_arrives (newer : b.generations.isNewer p.runId p.sample = true)
    (listed : p.runId ∈ (b.runs kind).records.map JobRecord.id) (now : Int64) : b.Arrives kind p now := by
  obtain ⟨record,known⟩ := Option.isSome_iff_exists.mp (((b.runs kind).find?_isSome p.runId).mpr listed)
  let patch : JobPatch := { progress:=some p.shown }
  have pushed : (b.receive (.progress kind p) now).1.runs kind =
      ((b.runs kind).applyPush p.runId patch now).1 := by
    rw [receive_newer newer]
    cases kind <;> rfl
  have merged := Roster.applyPush_merged known patch now
  rw [←pushed] at merged
  refine ⟨⟨record,known,?_⟩,merged,?_,?_⟩
  · rw [pushed,Roster.find?_eq,Roster.applyPush_records,Roster.patchFirst_find?,←Roster.find?_eq,known]; rfl
  · rw [receive_newer newer,Roster.applyPush_known known]; rfl
  · exact ⟨_,by rw [receive_newer newer],rfl,rfl,rfl⟩

theorem Arrives.newer (arrives : b.Arrives kind p now) : b.generations.isNewer p.runId p.sample = true := by
  obtain ⟨update,told,_⟩ := arrives.told
  obtain ⟨_,_,same,newer,_⟩ := receive_told told
  cases same
  exact newer

-- The two kinds of progress share the history of a run. A generation arrives exactly when
-- it is newer than all of that, and so whenever it is newer than every generation of
-- either kind that was accepted for its run. Otherwise nothing comes of it.
theorem newest_generation_arrives (settings : Settings) (moves : List Move) (kind : Push.RunKind)
    (p : Push.Progress) (now : Int64) :
    let b := (Board.start settings).after moves
    p.runId ∈ (b.runs kind).records.map JobRecord.id →
    ((∀ update ∈ (Board.start settings).accepted moves, update.runId = p.runId →
      update.sample.generation < p.generation) → b.Arrives kind p now) ∧
    (b.Arrives kind p now ↔ ∀ kept ∈ b.generations.samples p.runId, kept.generation < p.generation) ∧
    (¬ b.Arrives kind p now →
      b.receive (.progress kind p) now = ({ b with lastMessageAt:=some now },{})) := by
  intro b listed
  have started : ∀ run, Generations.Ascending ((Board.start settings).generations.samples run) := fun _ => .nil
  have ascending : Generations.Ascending (b.generations.samples p.runId) := after_ascending started p.runId
  have exact_newer := Generations.isNewer_iff ascending p.sample
  have arrives : b.Arrives kind p now ↔ ∀ kept ∈ b.generations.samples p.runId, kept.generation < p.generation :=
    ⟨fun arrived => exact_newer.mp arrived.newer,fun above => receive_arrives (exact_newer.mpr above) listed now⟩
  refine ⟨?_,arrives,?_⟩
  · intro above
    apply arrives.mpr
    intro kept present
    rcases after_history present with initial | ⟨update,told,named,rfl⟩
    · cases initial
    · exact above update told named
  · intro lost
    cases newer : b.generations.isNewer p.runId p.sample with
    | true => exact absurd (receive_arrives newer listed now) lost
    | false => exact receive_older newer kind now

-- A discovery run under the id of a job that is further on. Its first generation is lost,
-- although no generation of a discovery run was accepted before.
theorem job_generation_blocks_discovery :
    let settings : Settings := ⟨defaultApiBaseUrl,defaultPushUrl,5000,10000,15000,15000,60000,600,none⟩
    let listed : JobRecord := ⟨"run","discovery",.running,none,none,false,none⟩
    let moves : List Move :=
      [.poll (.discoveryRuns (.ok [listed])) 0,.message (.progress .job ⟨"run",5,0.5,0.25,0,none⟩) 1]
    let p : Push.Progress := ⟨"run",1,0.75,0.5,0.25,none⟩
    let b := (Board.start settings).after moves
    p.runId ∈ (b.runs .discovery).records.map JobRecord.id ∧
      (∀ update ∈ (Board.start settings).accepted moves, update.collection = .discoveryRuns →
        update.runId = p.runId → update.sample.generation < p.generation) ∧
      (b.receive (.progress .discovery p) 2).2.changed = none ∧
      (b.receive (.progress .discovery p) 2).2.progress = none ∧
      ((b.receive (.progress .discovery p) 2).1.runs .discovery).find? p.runId = some listed := by
  intro settings listed moves p b
  have accepted : ((Board.start settings).accepted moves).map ProgressUpdate.collection = [.jobs] := by decide
  refine ⟨by decide,?_,rfl,rfl,rfl⟩
  intro update told discovery
  have kind := List.mem_map_of_mem (f := ProgressUpdate.collection) told
  rw [accepted,discovery] at kind
  cases List.mem_singleton.mp kind

theorem newest_discovery_generation_arrives :
    let settings : Settings := ⟨defaultApiBaseUrl,defaultPushUrl,5000,10000,15000,15000,60000,600,none⟩
    let listed : JobRecord := ⟨"run","discovery",.running,none,none,false,none⟩
    let push (run : String) (kind : Push.RunKind) (n : UInt32) : Move :=
      .message (.progress kind ⟨run,n,0.5,0.25,0,none⟩) 1
    let moves : List Move :=
      [.poll (.discoveryRuns (.ok [listed])) 0,push "run" .job 5,push "run" .discovery 2,push "other" .job 9]
    let p : Push.Progress := ⟨"run",6,0.75,0.5,0.25,none⟩
    let b := (Board.start settings).after moves
    p.runId ∈ (b.runs .discovery).records.map JobRecord.id ∧
      (∀ update ∈ (Board.start settings).accepted moves, update.runId = p.runId →
        update.sample.generation < p.generation) ∧
      ((Board.start settings).accepted moves).map (fun update => (update.collection,update.runId)) =
        [(.jobs,"run"),(.jobs,"other")] ∧
      b.Arrives .discovery p 2 := by
  intro settings listed push moves p b
  have accepted : ((Board.start settings).accepted moves).map
      (fun update => (update.runId,update.sample.generation)) = [("run",5),("other",9)] := by decide
  have present : p.runId ∈ (b.runs .discovery).records.map JobRecord.id := by decide
  have above : ∀ update ∈ (Board.start settings).accepted moves, update.runId = p.runId →
      update.sample.generation < p.generation := by
    intro update told named
    have entry := List.mem_map_of_mem (f := fun update => (update.runId,update.sample.generation)) told
    rw [accepted] at entry
    simp only [List.mem_cons,List.not_mem_nil,or_false,Prod.mk.injEq] at entry
    rcases entry with ⟨_,generation⟩ | ⟨other,_⟩
    · rw [generation]; decide
    · rw [other] at named
      exact absurd named (by decide)
  obtain ⟨arrives,_⟩ := newest_generation_arrives settings moves .discovery p 2 present
  exact ⟨present,above,by decide,arrives above⟩

end RunWatch.Board
