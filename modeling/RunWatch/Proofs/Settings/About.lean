import RunWatch.Proofs.Settings.Acceptance
namespace RunWatch
open Text (Says Shorn)

structure UrlRule.Tells (rule : UrlRule) (ambient : Option String) (told used : String) : Prop where
  slashes : Shorn (· == '/') told.toList used.toList
  same : told = used ↔ ∀ word, Says ambient word → word.toList.getLast? ≠ some '/'

namespace UrlRule
variable {rule : UrlRule} {ambient : Option String} {told used : String}

theorem chooses_unasked (rule : UrlRule) (ambient : Option String) :
    rule.Chooses none ambient (fromSurroundings ambient rule.default) :=
  chooses_iff.mpr rfl

theorem surroundings_last (proper : rule.Proper) :
    (fromSurroundings ambient rule.default).toList.getLast? ≠ some '/' ↔
      ∀ word, Says ambient word → word.toList.getLast? ≠ some '/' := by
  constructor
  · intro bare word said
    rwa [surroundings_said said] at bare
  · intro bare
    rcases Text.says_or_silent ambient with ⟨word,said⟩ | unset
    · rw [surroundings_said said]
      exact bare word said
    · rw [surroundings_silent unset]
      exact proper.last

theorem Means.tells (proper : rule.Proper) (means : rule.Means none ambient used) :
    rule.Tells ambient (fromSurroundings ambient rule.default) used := by
  obtain ⟨word,chooses,shorn⟩ := means
  have told : fromSurroundings ambient rule.default = word :=
    (chooses_iff.mp (chooses_unasked rule ambient)).symm.trans (chooses_iff.mp chooses)
  rw [← told] at shorn
  refine ⟨shorn,?_⟩
  rw [← surroundings_last proper]
  constructor
  · intro same slash
    rw [same] at slash
    exact absurd (shorn.last '/' slash) (by decide)
  · intro bare
    have clear : ∀ c ∈ (fromSurroundings ambient rule.default).toList.getLast?, (c == '/') = false :=
      fun c final => beq_false_of_ne fun slash => bare (slash ▸ final)
    exact String.toList_inj.mp (shorn.whole clear).symm

end UrlRule

-- The addresses that are told of are those of a start that asks for nothing, if no variable of
-- the surroundings ends in a slash. One that does is told of with its slashes, and used without.
theorem about_tells_default_addresses {env : Environment} {s : Settings}
    (accepted : Settings.ofRequest {} env = .ok s) (productName version identifier : String) :
    let about := About.of productName version identifier env
    UrlRule.api.Tells env.apiBaseUrl about.apiBaseUrl s.apiBaseUrl ∧
      UrlRule.push.Tells env.pushUrl about.pushUrl s.pushUrl := by
  have meant := (Settings.ofRequest_ok.mp accepted).meant
  exact ⟨meant.apiBaseUrl.tells UrlRule.api_proper,meant.pushUrl.tells UrlRule.push_proper⟩

theorem addresses_told_of :
    let env : Environment := ⟨some " http://host:9000 ",some "ws://host:9000/ws//"⟩
    let about := About.of "monitor" "1.0" "monitor.desktop" env
    let s : Settings := ⟨"http://host:9000","ws://host:9000/ws",5000,10000,15000,15000,60000,600,none⟩
    Settings.ofRequest {} env = .ok s ∧ about.apiBaseUrl = s.apiBaseUrl ∧ about.pushUrl ≠ s.pushUrl := by
  intro env about s
  have apiUsed : UrlRule.api.resolve none (some " http://host:9000 ") = .ok "http://host:9000" :=
    UrlRule.resolve_ok.mpr ⟨by decide +kernel,by decide +kernel⟩
  have pushUsed : UrlRule.push.resolve none (some "ws://host:9000/ws//") = .ok "ws://host:9000/ws" :=
    UrlRule.resolve_ok.mpr ⟨by decide +kernel,by decide +kernel⟩
  have accepted : Settings.ofRequest {} env = .ok s := Settings.ofRequest_addresses apiUsed pushUsed
  obtain ⟨api,push⟩ := about_tells_default_addresses accepted "monitor" "1.0" "monitor.desktop"
  refine ⟨accepted,api.same.mpr ?_,fun same => push.same.mp same "ws://host:9000/ws//" ?_ (by decide)⟩
  · intro word said
    have words : (some " http://host:9000 ").bind Text.content? = some "http://host:9000" := by decide +kernel
    rw [Option.some.inj ((Text.says_iff.mp said).symm.trans words)]
    decide
  · exact Text.says_iff.mpr (by decide +kernel)

theorem slash_told_but_not_used :
    let env : Environment := ⟨some "http://localhost:9000/",none⟩
    ∃ s, Settings.ofRequest {} env = .ok s ∧
      (About.of "monitor" "1.0" "monitor.desktop" env).apiBaseUrl = "http://localhost:9000/" ∧
      s.apiBaseUrl = "http://localhost:9000" := by
  intro env
  have apiUsed : UrlRule.api.resolve none (some "http://localhost:9000/") = .ok "http://localhost:9000" :=
    UrlRule.resolve_ok.mpr ⟨by decide +kernel,by decide +kernel⟩
  have pushUsed : UrlRule.push.resolve none none = .ok defaultPushUrl :=
    UrlRule.resolve_ok.mpr ⟨by decide +kernel,by decide +kernel⟩
  exact ⟨_,Settings.ofRequest_addresses apiUsed pushUsed,by decide +kernel,rfl⟩

end RunWatch
