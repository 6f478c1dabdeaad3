import RunWatch.Proofs.Api.Address
import RunWatch.Proofs.Settings
namespace RunWatch.Api

def route (words : List String) : String := "/api/" ++ "/".intercalate words

structure Named (words : List String) : Prop where
  plain : ∀ w ∈ words, Word w.toList
  proper : ∀ w ∈ words, w ≠ "." ∧ w ≠ ".."

instance : DecidablePred Named := fun words => decidable_of_iff
  ((∀ w ∈ words, Word w.toList) ∧ ∀ w ∈ words, w ≠ "." ∧ w ≠ "..")
  ⟨fun ⟨plain,proper⟩ => ⟨plain,proper⟩,fun named => ⟨named.plain,named.proper⟩⟩

section
variable {url origin w : String} {done words : List String}

theorem plain_words {words : List (List Char)} (each : ∀ w ∈ words, Word w) : Plain (['/'].intercalate words) := by
  induction words with
  | nil => exact fun c member => absurd member List.not_mem_nil
  | cons w rest ih =>
    have others := ih fun x member => each x (List.mem_cons_of_mem w member)
    have first : Plain w := fun c member => Or.inl (each w List.mem_cons_self c member)
    cases rest with
    | nil => rwa [List.intercalate_singleton]
    | cons next more =>
      rw [List.intercalate_cons_cons,List.append_assoc,List.singleton_append]
      intro c member
      obtain early | late := List.mem_append.mp member
      · exact first c early
      · obtain same | later := List.mem_cons.mp late
        · exact Or.inr same
        · exact others c later

theorem visit_proper (done : List String) (word : Word w.toList) (here : w ≠ ".") (up : w ≠ "..") :
    visit done w.toList = w :: done := by
  have notHere : w.toList ≠ ".".toList := fun same => here (String.toList_inj.mp same)
  have notUp : w.toList ≠ "..".toList := fun same => up (String.toList_inj.mp same)
  rw [visit_word done word notHere notUp,String.ofList_toList]

theorem visit_here (done : List String) : visit done ".".toList = done := rfl

theorem visit_up (done : List String) : visit done "..".toList = done.tail := rfl

theorem visit_named (done : List String) (named : Named words) :
    (words.map String.toList).foldl visit done = words.reverse ++ done := by
  induction words generalizing done with
  | nil => rfl
  | cons w rest ih =>
    obtain ⟨here,up⟩ := named.proper w List.mem_cons_self
    have others : Named rest := ⟨fun x member => named.plain x (List.mem_cons_of_mem w member),
      fun x member => named.proper x (List.mem_cons_of_mem w member)⟩
    rw [List.map_cons,List.foldl_cons,visit_proper done (named.plain w List.mem_cons_self) here up,ih _ others,
      List.reverse_cons,List.append_assoc,List.singleton_append]

theorem Leads.ofText_route {front : List String} {last : String} (leads : Leads url origin done)
    (plain : ∀ w ∈ front ++ [last], Word w.toList) (here : last ≠ ".") (up : last ≠ "..") :
    Address.ofText (url ++ route (front ++ [last])) =
      ⟨origin,(last :: (front.map String.toList).foldl visit done).reverse,none,none⟩ := by
  have each : ∀ w ∈ (front ++ [last]).map String.toList, Word w := by
    intro w member
    obtain ⟨word,present,rfl⟩ := List.mem_map.mp member
    exact plain word present
  have spelled : (route (front ++ [last])).toList =
      "/api/".toList ++ ['/'].intercalate ((front ++ [last]).map String.toList) := by
    rw [route,String.toList_append,String.toList_intercalate]
    rfl
  have cut : parts isSlash (['/'].intercalate ((front ++ [last]).map String.toList)) =
      front.map String.toList ++ [last.toList] := by
    rw [parts_words (by simp) each,List.map_append]
    rfl
  have final : Word last.toList := plain last (List.mem_append_right front List.mem_cons_self)
  obtain ⟨notHere,notUp⟩ := final.not_dots (fun same => here (String.toList_inj.mp same))
    (fun same => up (String.toList_inj.mp same))
  rw [leads _ _ spelled (plain_words each),cut,follow_append done _ (List.cons_ne_nil last.toList []),
    follow_last _ notHere notUp,visit_proper _ final here up]

theorem Leads.ofText_named (leads : Leads url origin done) (named : Named words) (present : words ≠ []) :
    Address.ofText (url ++ route words) = ⟨origin,done.reverse ++ words,none,none⟩ := by
  obtain ⟨front,last,rfl⟩ : ∃ front last, words = front ++ [last] := ⟨_,_,(List.dropLast_concat_getLast present).symm⟩
  have some : last ∈ front ++ [last] := List.mem_append_right front List.mem_cons_self
  have before : Named front := ⟨fun w member => named.plain w (List.mem_append_left [last] member),
    fun w member => named.proper w (List.mem_append_left [last] member)⟩
  obtain ⟨here,up⟩ := named.proper last some
  rw [leads.ofText_route named.plain here up,visit_named done before,List.reverse_cons,List.reverse_append,
    List.reverse_reverse,List.append_assoc]

end

-- Where a path through an id leads: one dot is no segment, and two take away the segment
-- before.
def within (collection id verb : String) : List String :=
  if id = "." then [collection,verb] else if id = ".." then [verb] else [collection,id,verb]

theorem RunId.word (run : RunId) : Word run.text.toList := by
  have allowed := run.allowed
  rw [isRunId,Bool.and_eq_true] at allowed
  exact List.all_eq_true.mp allowed.2

theorem visit_run (done : List String) (run : RunId) {collection verb : String} (named : Named [collection,verb]) :
    (verb :: visit (visit done collection.toList) run.text.toList).reverse =
      done.reverse ++ within collection run.text verb := by
  obtain ⟨here,up⟩ := named.proper collection List.mem_cons_self
  rw [visit_proper done (named.plain collection List.mem_cons_self) here up]
  unfold within
  split
  · rename_i here
    rw [here,visit_here]
    simp
  · split
    · rename_i up
      rw [up,visit_up]
      simp
    · rename_i here up
      rw [visit_proper _ run.word here up]
      simp

theorem Leads.ofText_run {url origin collection verb : String} {done : List String} (leads : Leads url origin done)
    (named : Named [collection,verb]) (run : RunId) : Address.ofText (url ++ route [collection,run.text,verb]) =
      ⟨origin,done.reverse ++ within collection run.text verb,none,none⟩ := by
  have last : verb ∈ [collection,verb] := List.mem_cons_of_mem collection List.mem_cons_self
  have plain : ∀ w ∈ [collection,run.text] ++ [verb], Word w.toList := by
    simp [run.word,named.plain collection List.mem_cons_self,named.plain verb last]
  obtain ⟨here,up⟩ := named.proper verb last
  have led := leads.ofText_route plain here up
  rwa [List.map_cons,List.map_singleton,List.foldl_cons,List.foldl_cons,List.foldl_nil,
    visit_run done run named] at led

theorem within_injective {collection verb a b : String} (same : within collection a verb = within collection b verb) :
    a = b := by
  unfold within at same
  grind

theorem within_last (collection id verb : String) : (within collection id verb).getLast? = some verb := by
  unfold within
  split
  · rfl
  · split <;> rfl

theorem within_verb {collection other verb asked a b : String}
    (same : within collection a verb = within other b asked) : verb = asked := by
  have ends := congrArg List.getLast? same
  rw [within_last,within_last] at ends
  exact Option.some.inj ends

def wordsOf : Collection → List String
  | .jobs => ["jobs"]
  | .discoveryRuns => ["discovery","runs"]
  | .positions => ["positions"]
  | .sessions => ["sessions"]

namespace Client

theorem collectionPath_route (collection : Collection) : collectionPath collection = route (wordsOf collection) := by
  cases collection <;> rfl

theorem cleanupPath?_route {collection : Collection} {path : String} (cleaned : cleanupPath? collection = some path) :
    path = route (wordsOf collection ++ ["cleanup-stale"]) := by
  cases collection <;> cases cleaned <;> rfl

theorem killPath_route (run : RunId) : killPath run = route ["jobs",run.text,"kill"] := by
  apply String.toList_inj.mp
  rw [killPath,route,String.toList_append,String.toList_append,String.toList_append,String.toList_append,
    String.toList_intercalate]
  rfl

theorem candlesPath_route (run : RunId) : candlesPath run = route ["runs",run.text,"candles"] := by
  apply String.toList_inj.mp
  rw [candlesPath,route,String.toList_append,String.toList_append,String.toList_append,String.toList_intercalate]
  rfl

def Names (c : Client) (id : String) (r : Request) : Prop :=
  (∃ call, c.kill id = .ok call ∧ call.request = r) ∨ ∃ call, c.candles id = .ok call ∧ call.request = r

def others (c : Client) : List Request :=
  (Collection.all.map fun collection => c.request .get (collectionPath collection)) ++
    Collection.all.filterMap c.cleanupRequest?

-- What ids do to the requests of a client: no request leaves the place that is the
-- client's, and none is another request in disguise.
structure Confines (c : Client) (origin : String) (root : List String) : Prop where
  kill : ∀ id, isRunId (Text.trim id) = true → ∃ call, c.kill id = .ok call ∧
    call.request = ⟨.post,⟨origin,root ++ within "jobs" (Text.trim id) "kill",none,none⟩⟩
  candles : ∀ id, isRunId (Text.trim id) = true → ∃ call, c.candles id = .ok call ∧
    call.request = ⟨.get,⟨origin,root ++ within "runs" (Text.trim id) "candles",none,none⟩⟩
  distinct : ∀ id other r s, c.Names id r → c.Names other s → r.address = s.address →
    Text.trim id = Text.trim other ∧ r = s
  apart : ∀ id r, c.Names id r → ∀ other ∈ c.others, r.address ≠ other.address

section
variable {c : Client} {origin id : String} {done : List String}

theorem read_ok (allowed : isRunId (Text.trim id) = true) : RunId.read id = .ok ⟨Text.trim id,allowed⟩ :=
  dif_pos allowed

theorem read_error (refused : ¬ isRunId (Text.trim id) = true) :
    RunId.read id = .error (.argument (.runId (Text.trim id))) := dif_neg refused

theorem kill_request (leads : Leads c.apiBaseUrl origin done) (allowed : isRunId (Text.trim id) = true) :
    ∃ call, c.kill id = .ok call ∧
      call.request = ⟨.post,⟨origin,done.reverse ++ within "jobs" (Text.trim id) "kill",none,none⟩⟩ := by
  let run : RunId := ⟨Text.trim id,allowed⟩
  have sent : c.request .post (killPath run) =
      ⟨.post,⟨origin,done.reverse ++ within "jobs" run.text "kill",none,none⟩⟩ := by
    rw [request,killPath_route,leads.ofText_run (by decide) run]
  refine ⟨⟨c.request .post (killPath run),fun _ => .ok ⟨run.text,true⟩⟩,?_,sent⟩
  rw [kill,read_ok allowed]
  rfl

theorem candles_request (leads : Leads c.apiBaseUrl origin done) (allowed : isRunId (Text.trim id) = true) :
    ∃ call, c.candles id = .ok call ∧
      call.request = ⟨.get,⟨origin,done.reverse ++ within "runs" (Text.trim id) "candles",none,none⟩⟩ := by
  let run : RunId := ⟨Text.trim id,allowed⟩
  have sent : c.request .get (candlesPath run) =
      ⟨.get,⟨origin,done.reverse ++ within "runs" run.text "candles",none,none⟩⟩ := by
    rw [request,candlesPath_route,leads.ofText_run (by decide) run]
  refine ⟨(c.list Chart.CandleRow (candlesPath run)).map Chart.tidy,?_,sent⟩
  rw [candles,read_ok allowed]
  rfl

theorem Names.allowed {r : Request} (named : c.Names id r) : isRunId (Text.trim id) = true := by
  by_contra refused
  obtain ⟨call,sent,_⟩ | ⟨call,sent,_⟩ := named
  · rw [kill,read_error refused] at sent
    cases sent
  · rw [candles,read_error refused] at sent
    cases sent

theorem Names.sent {r : Request} (named : c.Names id r) (leads : Leads c.apiBaseUrl origin done) :
    r = ⟨.post,⟨origin,done.reverse ++ within "jobs" (Text.trim id) "kill",none,none⟩⟩ ∨
    r = ⟨.get,⟨origin,done.reverse ++ within "runs" (Text.trim id) "candles",none,none⟩⟩ := by
  have allowed := named.allowed
  obtain ⟨call,sent,rfl⟩ | ⟨call,sent,rfl⟩ := named
  · obtain ⟨known,same,request⟩ := kill_request leads allowed
    left
    rw [← request,Except.ok.inj (sent.symm.trans same)]
  · obtain ⟨known,same,request⟩ := candles_request leads allowed
    right
    rw [← request,Except.ok.inj (sent.symm.trans same)]

theorem others_sent {other : Request} (leads : Leads c.apiBaseUrl origin done) (member : other ∈ c.others) :
    ∃ words, other.address = ⟨origin,done.reverse ++ words,none,none⟩ ∧
      words.getLast? ≠ some "kill" ∧ words.getLast? ≠ some "candles" := by
  obtain listed | cleaned := List.mem_append.mp member
  · obtain ⟨collection,_,rfl⟩ := List.mem_map.mp listed
    have named : Named (wordsOf collection) := by cases collection <;> decide
    have present : wordsOf collection ≠ [] := by cases collection <;> decide
    refine ⟨wordsOf collection,?_,?_,?_⟩
    · rw [request,collectionPath_route,leads.ofText_named named present]
    all_goals cases collection <;> decide
  · obtain ⟨collection,_,asked⟩ := List.mem_filterMap.mp cleaned
    obtain ⟨path,found,rfl⟩ := Option.map_eq_some_iff.mp asked
    have named : Named (wordsOf collection ++ ["cleanup-stale"]) := by cases collection <;> decide
    refine ⟨wordsOf collection ++ ["cleanup-stale"],?_,?_,?_⟩
    · rw [request,cleanupPath?_route found,leads.ofText_named named (by simp)]
    all_goals simp

theorem segments_inj {root these those : List String}
    (same : (⟨origin,root ++ these,none,none⟩ : Address) = ⟨origin,root ++ those,none,none⟩) : these = those :=
  List.append_cancel_left (congrArg Address.segments same)

theorem confines (leads : Leads c.apiBaseUrl origin done) : c.Confines origin done.reverse := by
  refine ⟨fun _ => kill_request leads,fun _ => candles_request leads,?_,?_⟩
  · intro id other r s names alsoNames same
    obtain rfl | rfl := names.sent leads
    · obtain rfl | rfl := alsoNames.sent leads
      · have equal := within_injective (segments_inj same)
        exact ⟨equal,by rw [equal]⟩
      · exact absurd (within_verb (segments_inj same)) (by decide)
    · obtain rfl | rfl := alsoNames.sent leads
      · exact absurd (within_verb (segments_inj same)) (by decide)
      · have equal := within_injective (segments_inj same)
        exact ⟨equal,by rw [equal]⟩
  · intro id r names other member same
    obtain ⟨words,address,notKill,notCandles⟩ := others_sent leads member
    rw [address] at same
    obtain rfl | rfl := names.sent leads
    · have ends := congrArg List.getLast? (segments_inj same)
      rw [within_last] at ends
      exact notKill ends.symm
    · have ends := congrArg List.getLast? (segments_inj same)
      rw [within_last] at ends
      exact notCandles ends.symm

end
end Client

theorem Base.of_settings {request : StartRequest} {env : Environment} {s : Settings}
    (accepted : Settings.ofRequest request env = .ok s) (noQuery : '?' ∉ s.apiBaseUrl.toList)
    (noFragment : '#' ∉ s.apiBaseUrl.toList) : ∃ scheme letters, Base s.apiBaseUrl scheme letters := by
  have resolved := (Settings.ofRequest_ok.mp accepted).apiBaseUrl
  obtain ⟨scheme,known,starts⟩ := List.any_eq_true.mp (UrlRule.resolve_ok.mp resolved).2
  obtain ⟨letters,opens⟩ := List.isPrefixOf_iff_prefix.mp starts
  have inside : ∀ c ∈ letters, c ∈ s.apiBaseUrl.toList := fun c member => opens ▸ List.mem_append_right _ member
  refine ⟨scheme.toList,letters,opens.symm,?_,fun member => noQuery (inside _ member),
    fun member => noFragment (inside _ member)⟩
  obtain rfl | other := List.mem_cons.mp known
  · exact Or.inl rfl
  · exact Or.inr (congrArg String.toList (List.mem_singleton.mp other))

-- Ids stay in their place, and only "." and ".." are no segments of it.
theorem run_ids_confined {request : StartRequest} {env : Environment} {s : Settings}
    (accepted : Settings.ofRequest request env = .ok s) (noQuery : '?' ∉ s.apiBaseUrl.toList)
    (noFragment : '#' ∉ s.apiBaseUrl.toList) :
    ∃ origin root, Address.ofText (s.apiBaseUrl ++ "/api/") = ⟨origin,root ++ [""],none,none⟩ ∧
      (NamesHost s.apiBaseUrl → ∃ path, Address.ofText (s.apiBaseUrl ++ "/") = ⟨origin,path ++ [""],none,none⟩ ∧
        root = path ++ ["api"]) ∧
      Client.Confines ⟨s.apiBaseUrl,s.pushUrl⟩ origin root := by
  obtain ⟨scheme,letters,base⟩ := Base.of_settings accepted noQuery noFragment
  obtain ⟨origin,done,leads,named⟩ := base.leads
  refine ⟨origin,done.reverse,?_,named,Client.confines leads⟩
  rw [← follow_end]
  exact leads "/api/" [] rfl (by decide)

theorem run_is_a_segment :
    let s : Settings := ⟨defaultApiBaseUrl,defaultPushUrl,5000,10000,15000,15000,60000,600,none⟩
    Settings.ofRequest {} {} = .ok s ∧ '?' ∉ s.apiBaseUrl.toList ∧ '#' ∉ s.apiBaseUrl.toList ∧
      ∃ call, Client.kill ⟨s.apiBaseUrl,s.pushUrl⟩ " run_1.a " = .ok call ∧
        call.request = ⟨.post,⟨"http://127.0.0.1:8000",["api","jobs","run_1.a","kill"],none,none⟩⟩ := by
  intro s
  have accepted : Settings.ofRequest {} {} = .ok s := rfl
  have noQuery : '?' ∉ s.apiBaseUrl.toList := by decide
  have noFragment : '#' ∉ s.apiBaseUrl.toList := by decide
  obtain ⟨origin,root,place,_,confined⟩ := run_ids_confined accepted noQuery noFragment
  have found : Address.ofText (s.apiBaseUrl ++ "/api/") = ⟨"http://127.0.0.1:8000",["api"] ++ [""],none,none⟩ := by
    decide +kernel
  have same := place.symm.trans found
  have atOrigin : origin = "http://127.0.0.1:8000" := congrArg Address.origin same
  have atRoot : root = ["api"] := List.append_cancel_right (congrArg Address.segments same)
  obtain ⟨call,sent,request⟩ := confined.kill " run_1.a " (by decide +kernel)
  refine ⟨accepted,noQuery,noFragment,call,sent,?_⟩
  rw [request,atOrigin,atRoot]
  decide +kernel

theorem dots_are_no_segment : isRunId (Text.trim "..") = true ∧
    ∃ call, Client.kill ⟨defaultApiBaseUrl,defaultPushUrl⟩ ".." = .ok call ∧
      call.request.address = ⟨"http://127.0.0.1:8000",["api","kill"],none,none⟩ ∧
      call.request.address.segments ≠ ["api","jobs","..","kill"] :=
  ⟨by decide +kernel,_,rfl,by decide +kernel,by decide +kernel⟩

end RunWatch.Api
