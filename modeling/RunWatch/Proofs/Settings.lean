import RunWatch.Proofs.Fault
import RunWatch.Settings
namespace RunWatch

theorem DurationRule.resolve_ok {rule : DurationRule} :
    rule.resolve asked = .ok value ↔ value = asked.getD rule.default ∧ rule.low ≤ value ∧ value ≤ rule.high := by
  unfold resolve
  dsimp only
  split
  · rename_i within
    constructor
    · intro resolved
      cases resolved
      exact ⟨rfl,within⟩
    · rintro ⟨rfl,_⟩
      rfl
  · rename_i outside
    constructor
    · intro resolved
      cases resolved
    · rintro ⟨rfl,within⟩
      exact absurd within outside

theorem UrlRule.resolve_ok {rule : UrlRule} : rule.resolve asked ambient = .ok url ↔
    withoutSlashes (chosenUrl asked ambient rule.default) = url ∧ startsWithOneOf rule.schemes url = true := by
  unfold resolve
  dsimp only
  split
  · rename_i known
    constructor
    · intro resolved
      cases resolved
      exact ⟨rfl,known⟩
    · rintro ⟨rfl,_⟩
      rfl
  · rename_i unknown
    constructor
    · intro resolved
      cases resolved
    · rintro ⟨rfl,known⟩
      exact absurd known unknown

structure Settings.Resolves (r : StartRequest) (env : Environment) (s : Settings) : Prop where
  apiBaseUrl : UrlRule.api.resolve r.apiBaseUrl env.apiBaseUrl = .ok s.apiBaseUrl
  pushUrl : UrlRule.push.resolve r.pushUrl env.pushUrl = .ok s.pushUrl
  positionsPollMs : DurationRule.positionsPoll.resolve r.positionsPollMs = .ok s.positionsPollMs
  discoveryPollMs : DurationRule.discoveryPoll.resolve r.discoveryPollMs = .ok s.discoveryPollMs
  jobsPollMs : DurationRule.jobsPoll.resolve r.jobsPollMs = .ok s.jobsPollMs
  sessionsPollMs : DurationRule.sessionsPoll.resolve r.sessionsPollMs = .ok s.sessionsPollMs
  staleAfterMs : DurationRule.staleAfter.resolve r.staleAfterMs = .ok s.staleAfterMs
  flashMs : DurationRule.flash.resolve r.flashMs = .ok s.flashMs
  sessionId : s.sessionId = r.sessionId.bind Text.content?

theorem Settings.ofRequest_ok {r : StartRequest} :
    Settings.ofRequest r env = .ok s ↔ Settings.Resolves r env s := by
  constructor
  · intro accepted
    obtain ⟨api,one,accepted⟩ := Except.bind_ok_iff.mp accepted
    obtain ⟨push,two,accepted⟩ := Except.bind_ok_iff.mp accepted
    obtain ⟨positions,three,accepted⟩ := Except.bind_ok_iff.mp accepted
    obtain ⟨discovery,four,accepted⟩ := Except.bind_ok_iff.mp accepted
    obtain ⟨jobs,five,accepted⟩ := Except.bind_ok_iff.mp accepted
    obtain ⟨sessions,six,accepted⟩ := Except.bind_ok_iff.mp accepted
    obtain ⟨stale,seven,accepted⟩ := Except.bind_ok_iff.mp accepted
    obtain ⟨flash,eight,accepted⟩ := Except.bind_ok_iff.mp accepted
    cases accepted
    exact ⟨one,two,three,four,five,six,seven,eight,rfl⟩
  · rintro ⟨one,two,three,four,five,six,seven,eight,session⟩
    simp only [Settings.ofRequest,one,two,three,four,five,six,seven,eight,bind,Except.bind,← session]
    rfl

end RunWatch
