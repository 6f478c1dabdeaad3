import RunWatch.Proofs.Settings.Addresses
namespace RunWatch
open Text (Says Silent Trimmed)

inductive Check where
  | url (rule : UrlRule) (asked ambient : Option String)
  | duration (rule : DurationRule) (asked : Option UInt64)

namespace Check

def field : Check → String
  | url rule _ _ => rule.field
  | duration rule _ => rule.field

def Holds : Check → Prop
  | url rule asked ambient => ∃ address, rule.Means asked ambient address ∧ rule.Admits address
  | duration rule asked => rule.low ≤ asked.getD rule.default ∧ asked.getD rule.default ≤ rule.high

def fault : Check → Fault
  | url rule _ _ => .argument (.scheme rule.field rule.schemes)
  | duration rule _ => .argument (.outOfBounds rule.field rule.low.toNat rule.high.toNat)

def demand : Check → String
  | url rule _ _ => " must start with one of " ++ ", ".intercalate rule.schemes
  | duration rule _ => " must be between " ++ toString rule.low.toNat ++ " and " ++ toString rule.high.toNat

def FirstFails (checks : List Check) (c : Check) : Prop :=
  ∃ earlier later, checks = earlier ++ c :: later ∧ (∀ e ∈ earlier, e.Holds) ∧ ¬ c.Holds

-- A result that is there exactly if a check holds, and has the fault of the check otherwise.
structure Decides (c : Check) (x : Except Fault α) : Prop where
  ok : (∃ a, x = .ok a) ↔ c.Holds
  error : ∀ fault, x = .error fault ↔ ¬ c.Holds ∧ fault = c.fault

variable {c head : Check} {rest checks : List Check} {fault : Fault}

theorem Decides.of {x : Except Fault α} (ok : (∃ a, x = .ok a) ↔ c.Holds)
    (faulted : ∀ fault, x = .error fault → fault = c.fault) : c.Decides x := by
  refine ⟨ok,fun fault => ⟨?_,?_⟩⟩
  · intro failed
    refine ⟨fun holds => ?_,faulted fault failed⟩
    obtain ⟨a,found⟩ := ok.mpr holds
    rw [failed] at found
    cases found
  · intro failed
    obtain ⟨fails,same⟩ := failed
    cases result : x with
    | ok a => exact absurd (ok.mp ⟨a,result⟩) fails
    | error other => rw [same,faulted other result]

theorem url_decides (rule : UrlRule) (asked ambient : Option String) :
    (url rule asked ambient).Decides (rule.resolve asked ambient) := by
  apply Decides.of
  · exact exists_congr fun _ => UrlRule.resolve_means
  · intro fault failed
    unfold UrlRule.resolve at failed
    dsimp only at failed
    split at failed
    · cases failed
    · cases failed
      rfl

theorem duration_decides (rule : DurationRule) (asked : Option UInt64) :
    (duration rule asked).Decides (rule.resolve asked) := by
  apply Decides.of
  · simp only [DurationRule.resolve_ok,exists_eq_left,Holds]
  · intro fault failed
    unfold DurationRule.resolve at failed
    dsimp only at failed
    split at failed
    · cases failed
    · cases failed
      rfl

def Refused (checks : List Check) (fault : Fault) : Prop := ∃ c, FirstFails checks c ∧ fault = c.fault

theorem Refused.nil : ¬ Refused [] fault := by
  intro refused
  obtain ⟨_,⟨earlier,_,cut,_⟩,_⟩ := refused
  cases earlier <;> cases cut

theorem Refused.cons : Refused (head :: rest) fault ↔
    (¬ head.Holds ∧ fault = head.fault) ∨ (head.Holds ∧ Refused rest fault) := by
  constructor
  · intro refused
    obtain ⟨c,⟨earlier,later,cut,held,fails⟩,same⟩ := refused
    cases earlier with
    | nil =>
      cases cut
      exact Or.inl ⟨fails,same⟩
    | cons first others =>
      cases cut
      have further : ∀ e ∈ others, e.Holds := fun e member => held e (List.mem_cons_of_mem _ member)
      exact Or.inr ⟨held _ List.mem_cons_self,c,⟨others,later,rfl,further,fails⟩,same⟩
  · intro refused
    rcases refused with ⟨fails,same⟩ | ⟨holds,c,⟨earlier,later,cut,held,fails⟩,same⟩
    · exact ⟨head,⟨[],rest,rfl,by simp,fails⟩,same⟩
    · refine ⟨c,⟨head :: earlier,later,congrArg (head :: ·) cut,?_,fails⟩,same⟩
      intro e member
      rcases List.mem_cons.mp member with rfl | earlier
      · exact holds
      · exact held e earlier

theorem all_or_refused (checks : List Check) : (∀ c ∈ checks, c.Holds) ∨ ∃ fault, Refused checks fault := by
  induction checks with
  | nil => exact Or.inl fun c member => absurd member List.not_mem_nil
  | cons head rest ih =>
    by_cases holds : head.Holds
    · rcases ih with all | ⟨fault,refused⟩
      · exact Or.inl (List.forall_mem_cons.mpr ⟨holds,all⟩)
      · exact Or.inr ⟨fault,Refused.cons.mpr (Or.inr ⟨holds,refused⟩)⟩
    · exact Or.inr ⟨head.fault,Refused.cons.mpr (Or.inl ⟨holds,rfl⟩)⟩

theorem Refused.not_all (refused : Refused checks fault) : ¬ ∀ c ∈ checks, c.Holds := by
  obtain ⟨c,⟨earlier,later,rfl,_,fails⟩,_⟩ := refused
  exact fun all => fails (all c (List.mem_append_right earlier List.mem_cons_self))

theorem Decides.bind {x : Except Fault α} {next : α → Except Fault β} (decides : head.Decides x)
    (further : ∀ a, next a = .error fault ↔ Refused rest fault) :
    x.bind next = .error fault ↔ Refused (head :: rest) fault := by
  rw [Except.bind_error_iff,Refused.cons,decides.error]
  simp only [further,exists_and_right,decides.ok]

end Check

def Settings.checks (r : StartRequest) (env : Environment) : List Check :=
  [.url .api r.apiBaseUrl env.apiBaseUrl,.url .push r.pushUrl env.pushUrl,
    .duration .positionsPoll r.positionsPollMs,.duration .discoveryPoll r.discoveryPollMs,
    .duration .jobsPoll r.jobsPollMs,.duration .sessionsPoll r.sessionsPollMs,
    .duration .staleAfter r.staleAfterMs,.duration .flash r.flashMs]

structure Settings.Meant (r : StartRequest) (env : Environment) (s : Settings) : Prop where
  apiBaseUrl : UrlRule.api.Means r.apiBaseUrl env.apiBaseUrl s.apiBaseUrl
  pushUrl : UrlRule.push.Means r.pushUrl env.pushUrl s.pushUrl
  positionsPollMs : s.positionsPollMs = r.positionsPollMs.getD 5000
  discoveryPollMs : s.discoveryPollMs = r.discoveryPollMs.getD 10000
  jobsPollMs : s.jobsPollMs = r.jobsPollMs.getD 15000
  sessionsPollMs : s.sessionsPollMs = r.sessionsPollMs.getD 15000
  staleAfterMs : s.staleAfterMs = r.staleAfterMs.getD 60000
  flashMs : s.flashMs = r.flashMs.getD 600
  sessionId : ∀ id, s.sessionId = some id ↔ Says r.sessionId id

variable {r : StartRequest} {env : Environment} {s : Settings} {fault : Fault}

namespace Settings
open Check

theorem ofRequest_error : ofRequest r env = .error fault ↔ Refused (checks r env) fault := by
  unfold ofRequest checks
  apply Decides.bind (url_decides _ _ _)
  intro api
  apply Decides.bind (url_decides _ _ _)
  intro push
  apply Decides.bind (duration_decides _ _)
  intro positions
  apply Decides.bind (duration_decides _ _)
  intro discovery
  apply Decides.bind (duration_decides _ _)
  intro jobs
  apply Decides.bind (duration_decides _ _)
  intro sessions
  apply Decides.bind (duration_decides _ _)
  intro stale
  apply Decides.bind (duration_decides _ _)
  intro flash
  exact iff_of_false (fun failed => nomatch failed) Refused.nil

theorem ofRequest_accepted : (∃ s, ofRequest r env = .ok s) ↔ ∀ c ∈ checks r env, c.Holds := by
  constructor
  · intro accepted
    obtain ⟨s,accepted⟩ := accepted
    apply (all_or_refused (checks r env)).resolve_right
    intro failed
    obtain ⟨fault,refused⟩ := failed
    rw [ofRequest_error.mpr refused] at accepted
    cases accepted
  · intro all
    cases result : ofRequest r env with
    | ok s => exact ⟨s,rfl⟩
    | error fault => exact absurd all (ofRequest_error.mp result).not_all

-- Every default lies within its own bounds, so a request for addresses alone is as good as
-- these are.
theorem ofRequest_addresses {asked pushAsked : Option String} {api push : String}
    (apiResolved : UrlRule.api.resolve asked env.apiBaseUrl = .ok api)
    (pushResolved : UrlRule.push.resolve pushAsked env.pushUrl = .ok push) :
    ofRequest { apiBaseUrl:=asked, pushUrl:=pushAsked } env =
      .ok ⟨api,push,5000,10000,15000,15000,60000,600,none⟩ :=
  ofRequest_ok.mpr ⟨apiResolved,pushResolved,rfl,rfl,rfl,rfl,rfl,rfl,rfl⟩

theorem Resolves.meant (resolves : Resolves r env s) : Meant r env s where
  apiBaseUrl := (UrlRule.resolve_means.mp resolves.apiBaseUrl).1
  pushUrl := (UrlRule.resolve_means.mp resolves.pushUrl).1
  positionsPollMs := (DurationRule.resolve_ok.mp resolves.positionsPollMs).1
  discoveryPollMs := (DurationRule.resolve_ok.mp resolves.discoveryPollMs).1
  jobsPollMs := (DurationRule.resolve_ok.mp resolves.jobsPollMs).1
  sessionsPollMs := (DurationRule.resolve_ok.mp resolves.sessionsPollMs).1
  staleAfterMs := (DurationRule.resolve_ok.mp resolves.staleAfterMs).1
  flashMs := (DurationRule.resolve_ok.mp resolves.flashMs).1
  sessionId id := by rw [resolves.sessionId,Text.says_iff]

theorem Meant.unique {t : Settings} (meant : Meant r env s) (also : Meant r env t) : s = t := by
  have session : s.sessionId = t.sessionId :=
    Option.ext fun id => (meant.sessionId id).trans (also.sessionId id).symm
  cases s
  cases t
  rw [mk.injEq]
  exact ⟨meant.apiBaseUrl.unique also.apiBaseUrl,meant.pushUrl.unique also.pushUrl,
    meant.positionsPollMs.trans also.positionsPollMs.symm,meant.discoveryPollMs.trans also.discoveryPollMs.symm,
    meant.jobsPollMs.trans also.jobsPollMs.symm,meant.sessionsPollMs.trans also.sessionsPollMs.symm,
    meant.staleAfterMs.trans also.staleAfterMs.symm,meant.flashMs.trans also.flashMs.symm,session⟩

theorem ofRequest_meant : ofRequest r env = .ok s ↔ (∀ c ∈ checks r env, c.Holds) ∧ Meant r env s := by
  constructor
  · intro accepted
    exact ⟨ofRequest_accepted.mp ⟨s,accepted⟩,(ofRequest_ok.mp accepted).meant⟩
  · intro judged
    obtain ⟨all,meant⟩ := judged
    obtain ⟨t,accepted⟩ := ofRequest_accepted.mpr all
    rw [meant.unique (ofRequest_ok.mp accepted).meant]
    exact accepted

theorem ofRequest_fits (accepted : ofRequest r env = .ok s) :
    UrlRule.api.Fits s.apiBaseUrl ∧ UrlRule.push.Fits s.pushUrl := by
  have resolves := ofRequest_ok.mp accepted
  exact ⟨UrlRule.api_proper.fits resolves.apiBaseUrl,UrlRule.push_proper.fits resolves.pushUrl⟩

theorem ofRequest_congr {other : Environment} (api : env.apiBaseUrl = other.apiBaseUrl ∨ ¬ Silent r.apiBaseUrl)
    (push : env.pushUrl = other.pushUrl ∨ ¬ Silent r.pushUrl) : ofRequest r env = ofRequest r other := by
  rw [ofRequest,ofRequest,UrlRule.resolve_congr api,UrlRule.resolve_congr push]

end Settings

theorem Check.fault_named (c : Check) : c.fault.message = "invalid argument: " ++ c.field ++ c.demand := by
  cases c with
  | url rule asked ambient =>
    change "invalid argument: " ++ (rule.field ++ " must start with one of " ++ ", ".intercalate rule.schemes) =
      "invalid argument: " ++ rule.field ++ (" must start with one of " ++ ", ".intercalate rule.schemes)
    simp only [String.append_assoc]
  | duration rule asked =>
    change "invalid argument: " ++ (rule.field ++ " must be between " ++ toString rule.low.toNat ++ " and " ++
        toString rule.high.toNat) = "invalid argument: " ++ rule.field ++
      (" must be between " ++ toString rule.low.toNat ++ " and " ++ toString rule.high.toNat)
    simp only [String.append_assoc]

structure Settings.Judged (r : StartRequest) (env : Environment) : Prop where
  order : (checks r env).map Check.field = ["apiBaseUrl","pushUrl","positionsPollMs","discoveryPollMs",
    "jobsPollMs","sessionsPollMs","staleAfterMs","flashMs"]
  accepted : (∃ s, ofRequest r env = .ok s) ↔ ∀ c ∈ checks r env, c.Holds
  meant : ∀ s, ofRequest r env = .ok s ↔ (∀ c ∈ checks r env, c.Holds) ∧ Meant r env s
  refused : ∀ fault, ofRequest r env = .error fault ↔
    ∃ c, Check.FirstFails (checks r env) c ∧ fault = c.fault
  named : ∀ c ∈ checks r env, c.fault.message = "invalid argument: " ++ c.field ++ c.demand
  fits : ∀ s, ofRequest r env = .ok s → UrlRule.api.Fits s.apiBaseUrl ∧ UrlRule.push.Fits s.pushUrl
  session : ∀ s id, ofRequest r env = .ok s → s.sessionId = some id → id ≠ "" ∧ Trimmed id id
  surroundings : ∀ other : Environment, (env.apiBaseUrl = other.apiBaseUrl ∨ ¬ Silent r.apiBaseUrl) →
    (env.pushUrl = other.pushUrl ∨ ¬ Silent r.pushUrl) → ofRequest r env = ofRequest r other

theorem request_judged_by_parts (r : StartRequest) (env : Environment) : Settings.Judged r env where
  order := rfl
  accepted := Settings.ofRequest_accepted
  meant _ := Settings.ofRequest_meant
  refused _ := Settings.ofRequest_error
  named c _ := c.fault_named
  fits _ := Settings.ofRequest_fits
  session s id accepted named := by
    obtain ⟨text,_,trimmed,present⟩ := ((Settings.ofRequest_meant.mp accepted).2.sessionId id).mp named
    exact ⟨present,Text.trim_iff.mp (Text.trimmed_self trimmed)⟩
  surroundings _ := Settings.ofRequest_congr

end RunWatch
