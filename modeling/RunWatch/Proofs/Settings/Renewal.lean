import RunWatch.Proofs.Settings.Acceptance
namespace RunWatch
open Text (Says Silent Shorn isBlank)

def EndsBlank (url : String) : Prop := ∃ c ∈ url.toList.getLast?, isBlank c = true

def UrlRule.Gap (rule : UrlRule) (asked ambient : Option String) : Prop :=
  ∃ word, rule.Chooses asked ambient word ∧ ∃ front c slashes, word.toList = front ++ c :: slashes ∧
    isBlank c = true ∧ ∀ d ∈ slashes, d = '/'

variable {rule : UrlRule} {asked ambient other : Option String} {url word again : String}

theorem not_endsBlank : ¬ EndsBlank url ↔ ∀ c ∈ url.toList.getLast?, isBlank c = false := by
  simp only [EndsBlank,not_exists,not_and,Bool.not_eq_true]

theorem not_endsBlank_last {c : Char} (last : url.toList.getLast? = some c) (clear : isBlank c = false) :
    ¬ EndsBlank url := by
  rw [not_endsBlank,last]
  intro d same
  exact Option.some.inj same ▸ clear

namespace UrlRule

theorem Means.endsBlank_iff (means : rule.Means asked ambient url) : EndsBlank url ↔ rule.Gap asked ambient := by
  obtain ⟨word,chooses,shorn⟩ := means
  constructor
  · intro blank
    obtain ⟨c,final,blank⟩ := blank
    obtain ⟨slashes,whole,all⟩ := shorn.behind
    obtain ⟨front,split⟩ := List.getLast?_eq_some_iff.mp final
    refine ⟨word,chooses,front,c,slashes,?_,blank,fun d member => beq_iff_eq.mp (all d member)⟩
    rw [whole,split,List.append_assoc,List.singleton_append]
  · intro gap
    obtain ⟨same,chosen,front,c,slashes,whole,blank,all⟩ := gap
    rw [← chooses_iff.mp chosen,chooses_iff.mp chooses] at whole
    have unslashed : (c == '/') = false := by
      refine beq_false_of_ne fun slash => ?_
      rw [slash] at blank
      exact absurd blank (by decide)
    have cut : Shorn (· == '/') word.toList (front ++ [c]) := by
      refine ⟨⟨slashes,?_,fun d member => beq_iff_eq.mpr (all d member)⟩,?_⟩
      · rw [whole,List.append_assoc,List.singleton_append]
      · intro d final
        rw [List.getLast?_concat] at final
        exact Option.some.inj final ▸ unslashed
    have same : url.toList = front ++ [c] := (Text.dropEnd_iff.mpr shorn).symm.trans (Text.dropEnd_iff.mpr cut)
    exact ⟨c,by rw [same,List.getLast?_concat]; rfl,blank⟩

section
variable (proper : rule.Proper) (resolved : rule.resolve asked ambient = .ok url)
include proper resolved

theorem resolve_first : ∀ c ∈ url.toList.head?, isBlank c = false := by
  obtain ⟨⟨word,chooses,shorn⟩,_⟩ := resolve_means.mp resolved
  have begun : ∀ c ∈ word.toList.head?, isBlank c = false := by
    cases chooses with
    | asked said =>
      obtain ⟨_,_,trimmed,_⟩ := said
      exact trimmed.first
    | ambient _ said =>
      obtain ⟨_,_,trimmed,_⟩ := said
      exact trimmed.first
    | default => exact proper.first
  obtain ⟨dropped,whole⟩ := shorn.front
  intro c first
  apply begun c
  rw [← whole,List.head?_append,Option.mem_def.mp first]
  rfl

theorem resolve_said : Says (some url) (Text.trim url) := by
  apply Text.says_begun (resolve_first proper resolved)
  intro empty
  obtain ⟨⟨_,_,rest,whole,present⟩,_⟩ := proper.fits resolved
  rw [empty] at whole
  exact present (String.append_eq_empty_iff.mp whole.symm).2

theorem resolve_behind : Shorn isBlank url.toList (Text.trim url).toList :=
  Text.trim_behind (resolve_first proper resolved)

theorem resolve_again (renewed : rule.resolve (some url) other = .ok again) :
    again.toList <+: (Text.trim url).toList := by
  obtain ⟨word,chooses,shorn⟩ := (resolve_means.mp renewed).1
  rw [← chooses_iff.mp chooses,chosen_asked (resolve_said proper resolved)] at shorn
  exact shorn.front

theorem resolve_front (renewed : rule.resolve (some url) other = .ok again) : again.toList <+: url.toList :=
  (resolve_again proper resolved renewed).trans (resolve_behind proper resolved).front

theorem resolve_kept : rule.resolve (some url) other = .ok url ↔ ¬ EndsBlank url := by
  have behind := resolve_behind proper resolved
  constructor
  · intro renewed
    have back := resolve_again proper resolved renewed
    have same : (Text.trim url).toList = url.toList := behind.front.eq_of_length_le back.length_le
    rw [not_endsBlank,← same]
    exact behind.last
  · intro clear
    have same : (Text.trim url).toList = url.toList := behind.whole (not_endsBlank.mp clear)
    refine resolve_means.mpr ⟨⟨Text.trim url,.asked (resolve_said proper resolved),?_⟩,(resolve_means.mp resolved).2⟩
    rw [same]
    refine ⟨⟨[],(List.append_nil _).symm,by simp⟩,fun c final => beq_false_of_ne fun slash => ?_⟩
    exact (proper.fits resolved).bare (slash ▸ final)

end
end UrlRule

namespace Settings
variable {r : StartRequest} {env other : Environment} {s t : Settings}

theorem Resolves.session_again (resolves : Resolves r env s) : s.sessionId.bind Text.content? = s.sessionId := by
  cases named : s.sessionId with
  | none => rfl
  | some id =>
    have said := resolves.sessionId
    rw [named] at said
    obtain ⟨text,_,found⟩ := Option.bind_eq_some_iff.mp said.symm
    rw [Option.bind_some,Text.content?_again found]

theorem renewed_iff (resolves : Resolves r env s) : ofRequest s.asRequest other = .ok t ↔
    UrlRule.api.resolve (some s.apiBaseUrl) other.apiBaseUrl = .ok t.apiBaseUrl ∧
    UrlRule.push.resolve (some s.pushUrl) other.pushUrl = .ok t.pushUrl ∧
    t = { s with apiBaseUrl:=t.apiBaseUrl, pushUrl:=t.pushUrl } := by
  constructor
  · intro renewed
    have again := ofRequest_ok.mp renewed
    have meant := again.meant
    have session : t.sessionId = s.sessionId := again.sessionId.trans resolves.session_again
    refine ⟨again.apiBaseUrl,again.pushUrl,?_⟩
    cases t
    rw [mk.injEq]
    exact ⟨rfl,rfl,meant.positionsPollMs,meant.discoveryPollMs,meant.jobsPollMs,meant.sessionsPollMs,
      meant.staleAfterMs,meant.flashMs,session⟩
  · intro renewed
    obtain ⟨api,push,same⟩ := renewed
    have again {rule : DurationRule} {asked : Option UInt64} {value : UInt64}
        (resolved : rule.resolve asked = .ok value) : rule.resolve (some value) = .ok value :=
      DurationRule.resolve_ok.mpr ⟨rfl,(DurationRule.resolve_ok.mp resolved).2⟩
    rw [same]
    exact ofRequest_ok.mpr ⟨api,push,again resolves.positionsPollMs,again resolves.discoveryPollMs,
      again resolves.jobsPollMs,again resolves.sessionsPollMs,again resolves.staleAfterMs,again resolves.flashMs,
      resolves.session_again.symm⟩

end Settings

-- Settings are kept when they are asked for again, whatever the surroundings, unless white
-- space is left at the end of an address. That is so where it stood before slashes.
theorem settings_kept_unless_blank_ended {r : StartRequest} {env : Environment} {s : Settings}
    (accepted : Settings.ofRequest r env = .ok s) (other : Environment) :
    (Settings.ofRequest s.asRequest other = .ok s ↔ ¬ EndsBlank s.apiBaseUrl ∧ ¬ EndsBlank s.pushUrl) ∧
    (EndsBlank s.apiBaseUrl ↔ UrlRule.api.Gap r.apiBaseUrl env.apiBaseUrl) ∧
    (EndsBlank s.pushUrl ↔ UrlRule.push.Gap r.pushUrl env.pushUrl) ∧
    (∀ t, Settings.ofRequest s.asRequest other = .ok t →
      t = { s with apiBaseUrl:=t.apiBaseUrl, pushUrl:=t.pushUrl } ∧
      t.apiBaseUrl.toList <+: s.apiBaseUrl.toList ∧ t.pushUrl.toList <+: s.pushUrl.toList) ∧
    Settings.ofRequest s.asRequest other = Settings.ofRequest s.asRequest {} ∧
    (∀ url ∈ [s.apiBaseUrl,s.pushUrl], (∀ c ∈ url.toList.head?, isBlank c = false) ∧
      url.toList.getLast? ≠ some '/') := by
  have resolves := Settings.ofRequest_ok.mp accepted
  have apiProper := UrlRule.api_proper
  have pushProper := UrlRule.push_proper
  have api := resolves.apiBaseUrl
  have push := resolves.pushUrl
  refine ⟨?_,?_,?_,?_,?_,?_⟩
  · rw [Settings.renewed_iff resolves,UrlRule.resolve_kept apiProper api,UrlRule.resolve_kept pushProper push]
    exact and_congr_right fun _ => and_iff_left rfl
  · exact (UrlRule.resolve_means.mp api).1.endsBlank_iff
  · exact (UrlRule.resolve_means.mp push).1.endsBlank_iff
  · intro t renewed
    obtain ⟨apiAgain,pushAgain,same⟩ := (Settings.renewed_iff resolves).mp renewed
    have apiFront := UrlRule.resolve_front apiProper api apiAgain
    have pushFront := UrlRule.resolve_front pushProper push pushAgain
    exact ⟨same,apiFront,pushFront⟩
  · apply Settings.ofRequest_congr
    · exact Or.inr (UrlRule.resolve_said apiProper api).spoken
    · exact Or.inr (UrlRule.resolve_said pushProper push).spoken
  · intro url member
    rcases List.mem_cons.mp member with rfl | member
    · exact ⟨UrlRule.resolve_first apiProper api,(apiProper.fits api).bare⟩
    · rw [List.mem_singleton.mp member]
      exact ⟨UrlRule.resolve_first pushProper push,(pushProper.fits push).bare⟩

theorem trimmed_settings_kept :
    let r : StartRequest := { apiBaseUrl:=some " https://host/a// " }
    let s : Settings := ⟨"https://host/a","ws://host",5000,10000,15000,15000,60000,600,none⟩
    Settings.ofRequest r ⟨none,some "ws://host/ "⟩ = .ok s ∧
      Settings.ofRequest s.asRequest ⟨some "http://other",some "nowhere"⟩ = .ok s := by
  intro r s
  have api : UrlRule.api.resolve (some " https://host/a// ") none = .ok "https://host/a" :=
    UrlRule.resolve_ok.mpr ⟨by decide +kernel,by decide +kernel⟩
  have push : UrlRule.push.resolve none (some "ws://host/ ") = .ok "ws://host" :=
    UrlRule.resolve_ok.mpr ⟨by decide +kernel,by decide +kernel⟩
  have accepted : Settings.ofRequest r ⟨none,some "ws://host/ "⟩ = .ok s := Settings.ofRequest_addresses api push
  obtain ⟨kept,_⟩ := settings_kept_unless_blank_ended accepted ⟨some "http://other",some "nowhere"⟩
  have apiLast : s.apiBaseUrl.toList.getLast? = some 'a' := by decide +kernel
  have pushLast : s.pushUrl.toList.getLast? = some 't' := by decide +kernel
  exact ⟨accepted,kept.mpr ⟨not_endsBlank_last apiLast (by decide),not_endsBlank_last pushLast (by decide)⟩⟩

-- White space before a last slash is still there once the slash is gone. The next time it is
-- lost together with the slash before it, even that of the scheme.
theorem blank_before_slash_not_kept :
    let s (url : String) : Settings := ⟨url,defaultPushUrl,5000,10000,15000,15000,60000,600,none⟩
    Settings.ofRequest { apiBaseUrl:=some "http://host/ /" } {} = .ok (s "http://host/ ") ∧
      Settings.ofRequest (s "http://host/ ").asRequest {} = .ok (s "http://host") ∧
      Settings.ofRequest { apiBaseUrl:=some "http:// /" } {} = .ok (s "http:// ") ∧
      Settings.ofRequest (s "http:// ").asRequest {} =
        .error (.argument (.scheme "apiBaseUrl" ["http://","https://"])) := by
  intro s
  have push : UrlRule.push.resolve none none = .ok defaultPushUrl := by
    exact UrlRule.resolve_ok.mpr ⟨by decide +kernel,by decide +kernel⟩
  have api (asked url : String) (resolved : UrlRule.api.resolve (some asked) none = .ok url) :
      Settings.ofRequest { apiBaseUrl:=some asked } {} = .ok (s url) :=
    Settings.ofRequest_addresses resolved push
  have first := api "http://host/ /" "http://host/ " (UrlRule.resolve_ok.mpr ⟨by decide +kernel,by decide +kernel⟩)
  have scheme := api "http:// /" "http:// " (UrlRule.resolve_ok.mpr ⟨by decide +kernel,by decide +kernel⟩)
  refine ⟨first,?_,scheme,?_⟩
  · refine (Settings.renewed_iff (Settings.ofRequest_ok.mp first)).mpr ⟨?_,?_,rfl⟩
    · exact UrlRule.resolve_ok.mpr ⟨by decide +kernel,by decide +kernel⟩
    · exact UrlRule.resolve_ok.mpr ⟨by decide +kernel,by decide +kernel⟩
  · have unknown : ¬ startsWithOneOf UrlRule.api.schemes
        (withoutSlashes (chosenUrl (some "http:// ") none UrlRule.api.default)) = true := by
      decide +kernel
    have refused : UrlRule.api.resolve (some "http:// ") none =
        .error (.argument (.scheme "apiBaseUrl" ["http://","https://"])) := UrlRule.resolve_unknown unknown
    rw [Settings.ofRequest,show (s "http:// ").asRequest.apiBaseUrl = some "http:// " from rfl,refused]
    rfl

end RunWatch
