/-
# `Proof.Redirects` — where a flow of signing in leads

The redirect of a flow is the frontend, the return path that was kept, a separator and the
result, put together as text.  Read as a URI it has the scheme and the authority of the
frontend, the path and the fragment of the return path, and the result behind its query
(`Carries`) exactly if the frontend is an origin and the return path has no fragment:
behind a '#' the result is part of the fragment (`redirects_carry_iff`).
-/
import ForkRoom.System.GoogleOauth
import Mathlib.Data.Rat.Floor

namespace ForkRoom

namespace GoogleOauth

open Uri

/-! ## What a redirect is to carry -/

/-- A parameter as it stands in a query. -/
def parameterText (p : String × String) : List Char := p.1.toList ++ '=' :: p.2.toList

structure Carries (frontendUrl kept : List Char) (query : List (String × String))
    (url : List Char) : Prop where
  scheme : (parse url).scheme = (parse frontendUrl).scheme
  authority : (parse url).authority = (parse frontendUrl).authority
  path : (parse url).path = (parse kept).path
  query : parameters (parse url).query = parameters (parse kept).query ++ query.map parameterText
  fragment : (parse url).fragment = (parse kept).fragment

/-- The URL less its trailing slashes. -/
def base (frontendUrl : List Char) : List Char := frontendUrl.rdropWhile (· = '/')

/-- Less its trailing slashes, the URL is its scheme and its authority. -/
structure IsOrigin (frontendUrl : List Char) : Prop where
  scheme : (parse (base frontendUrl)).scheme = (parse frontendUrl).scheme
  authority : (parse (base frontendUrl)).authority = (parse frontendUrl).authority
  path : (parse (base frontendUrl)).path = []
  query : (parse (base frontendUrl)).query = none
  fragment : (parse (base frontendUrl)).fragment = none

theorem getLast?_base (frontendUrl : List Char) : (base frontendUrl).getLast? ≠ some '/' := by
  intro h
  by_cases hne : base frontendUrl = []
  · rw [hne] at h
    cases h
  · have hlast := List.rdropWhile_last_not (· = '/') frontendUrl hne
    rw [List.getLast?_eq_some_getLast hne] at h
    exact hlast (decide_eq_true (Option.some.inj h))

/-! ## Letters of a query -/

/-- The letters of the parameters are those of the query, less the separators. -/
theorem length_parameters (query : Option (List Char)) :
    (parameters query).flatten.length = (query.getD []).countP (· ≠ '&') := by
  rw [parameters, Text.flatten_words, List.countP_eq_length_filter]
  congr 2
  funext c
  by_cases hc : c = '&' <;> simp [hc]

/-- The query of a result, as text. -/
structure IsResult (query : List (String × String)) : Prop where
  no_fragment : '#' ∉ urlencode query
  words : Text.words (· = '&') (urlencode query) = query.map parameterText
  nonempty : query ≠ []

theorem isResult_success : IsResult GoogleOAuthService.successQuery :=
  ⟨by decide, by decide, by decide⟩

theorem isResult_error (providerError : String) :
    IsResult (GoogleOAuthService.errorQuery providerError) := by
  unfold GoogleOAuthService.errorQuery
  by_cases h : providerError = "access_denied"
  · rw [if_pos h]
    exact ⟨by decide, by decide, by decide⟩
  · rw [if_neg h]
    exact ⟨by decide, by decide, by decide⟩

/-! ## One redirect -/

section
variable {settings : GoogleOAuthSettings} {kept more : List Char}
  {query : List (String × String)}

/-- What a return path is made of: no fragment, and a query or none; or a fragment. -/
theorem kept_cases (kept : List Char) :
    (∃ path, kept = path ∧ ∀ x ∈ path, x ∉ ['?', '#']) ∨
    (∃ path q, kept = path ++ '?' :: q ∧ (∀ x ∈ path, x ∉ ['?', '#']) ∧ '#' ∉ q) ∨
    ∃ front fragment, kept = front ++ '#' :: fragment ∧ '#' ∉ front := by
  rcases delimiter_cases ['#'] kept with hnone | ⟨front, c, fragment, rfl, hfront, hc⟩
  · have hno : ∀ x ∈ kept, x ≠ '#' := fun x hx hm => hnone x hx (by simp [hm])
    rcases delimiter_cases ['?', '#'] kept with hp | ⟨path, c, q, rfl, hp, hc⟩
    · exact .inl ⟨kept, rfl, hp⟩
    · have hc' : c = '?' := by
        have hne := hno c (by simp)
        simpa [hne] using hc
      subst hc'
      exact .inr (.inl ⟨path, q, rfl, hp, fun hm => hno '#' (by simp [hm]) rfl⟩)
  · rw [List.mem_singleton] at hc
    subst hc
    exact .inr (.inr ⟨front, fragment, rfl, fun hm => hfront '#' hm (by simp)⟩)

/-- The text behind the frontend. -/
def behind (kept : List Char) (query : List (String × String)) : List Char :=
  kept ++ (if '?' ∈ kept then '&' else '?') :: urlencode query

/-- The redirect, taken apart as far as the frontend goes. -/
theorem parse_redirect (settings : GoogleOAuthSettings) (hkept : kept = '/' :: more)
    (hmore : more.head? ≠ some '/') (query : List (String × String)) :
    parse (GoogleOAuthService.frontendRedirect settings kept query) =
      ⟨(parse (base settings.frontendUrl)).scheme, (parse (base settings.frontendUrl)).authority,
        (splitPath (relative (base settings.frontendUrl) ++ behind kept query)).1,
        (splitPath (relative (base settings.frontendUrl) ++ behind kept query)).2.1,
        (splitPath (relative (base settings.frontendUrl) ++ behind kept query)).2.2⟩ := by
  have hhead : (more ++ (if '?' ∈ kept then '&' else '?') :: urlencode query).head? ≠
      some '/' := by
    cases more with
    | nil =>
        rw [List.nil_append, List.head?_cons]
        split <;> decide
    | cons c more => exact hmore
  have htext : GoogleOAuthService.frontendRedirect settings kept query =
      base settings.frontendUrl ++
        '/' :: (more ++ (if '?' ∈ kept then '&' else '?') :: urlencode query) := by
    simp [GoogleOAuthService.frontendRedirect, base, hkept]
  obtain ⟨hscheme, hauthority, hrest⟩ := parse_append (getLast?_base settings.frontendUrl) hhead
  have hbehind : behind kept query =
      '/' :: (more ++ (if '?' ∈ kept then '&' else '?') :: urlencode query) := by
    simp [behind, hkept]
  rw [htext, hbehind, parse, hscheme, hauthority, hrest]
  rfl

theorem parse_kept (hkept : kept = '/' :: more) (hmore : more.head? ≠ some '/') :
    parse kept = ⟨none, none, (splitPath kept).1, (splitPath kept).2.1, (splitPath kept).2.2⟩ := by
  rw [hkept]
  exact parse_absolute hmore

/-- Behind an origin, a return path without a fragment takes the result into its query. -/
theorem splitPath_behind (hresult : IsResult query) (hno : '#' ∉ kept) :
    (splitPath (behind kept query)).1 = (splitPath kept).1 ∧
    parameters (splitPath (behind kept query)).2.1 =
      parameters (splitPath kept).2.1 ++ query.map parameterText ∧
    (splitPath (behind kept query)).2.2 = (splitPath kept).2.2 := by
  rcases kept_cases kept with ⟨path, rfl, hp⟩ | ⟨path, q, rfl, hp, hq⟩ | ⟨front, f, rfl, -⟩
  · have hmark : '?' ∉ kept := fun hm => hp '?' hm (by decide)
    rw [behind, if_neg hmark, splitPath_query hp hresult.no_fragment, splitPath_path hp]
    exact ⟨rfl, hresult.words, rfl⟩
  · have hno' : '#' ∉ q ++ '&' :: urlencode query := by
      simpa [hq] using hresult.no_fragment
    rw [behind, if_pos (by simp), List.append_assoc, List.cons_append,
      splitPath_query hp hno', splitPath_query hp hq]
    refine ⟨rfl, ?_, rfl⟩
    rw [← hresult.words]
    exact Text.words_append_cons (by decide) q _
  · exact absurd (by simp) hno

/-- A fragment is shorter than its text. -/
theorem length_fragment_lt {text fragment : List Char} (h : (splitPath text).2.2 = some fragment) :
    fragment.length < text.length := by
  rcases kept_cases text with ⟨path, rfl, hp⟩ | ⟨path, q, rfl, hp, hq⟩ | ⟨front, f, rfl, hf⟩
  · rw [splitPath_path hp] at h
    cases h
  · rw [splitPath_query hp hq] at h
    cases h
  · rw [splitPath_fragment hf] at h
    cases h
    simp only [List.length_append, List.length_cons]
    omega

/-- An absolute path has a letter more than its query. -/
theorem countP_query_lt (hkept : kept = '/' :: more) (hno : '#' ∉ kept) :
    ((splitPath kept).2.1.getD []).countP (· ≠ '&') < kept.countP (· ≠ '&') := by
  rcases kept_cases kept with ⟨path, rfl, hp⟩ | ⟨path, q, rfl, hp, hq⟩ | ⟨front, f, rfl, -⟩
  · rw [splitPath_path hp, hkept, List.countP_cons_of_pos (by decide)]
    exact Nat.succ_pos _
  · rw [splitPath_query hp hq, List.countP_append, List.countP_cons_of_pos (by decide)]
    simp only [Option.getD_some]
    omega
  · exact absurd (by simp) hno

/-- What stands in front of the return path is neither path nor query nor fragment, and
the return path has no fragment. -/
theorem of_splitPath_eq {rest : List Char} (hresult : IsResult query) (hkept : kept = '/' :: more)
    (hpath : (splitPath (rest ++ behind kept query)).1 = (splitPath kept).1)
    (hquery : parameters (splitPath (rest ++ behind kept query)).2.1 =
      parameters (splitPath kept).2.1 ++ query.map parameterText)
    (hfragment : (splitPath (rest ++ behind kept query)).2.2 = (splitPath kept).2.2) :
    rest = [] ∧ '#' ∉ kept := by
  have hlonger : kept.length < (behind kept query).length := by
    simp [behind]
  by_cases hrest : '#' ∈ rest
  · -- the return path is in the fragment of the frontend
    exfalso
    rcases kept_cases rest with ⟨path, rfl, hp⟩ | ⟨path, q, rfl, hp, hq⟩ | ⟨front, f, rfl, hf⟩
    · exact hp '#' hrest (by decide)
    · rcases List.mem_append.mp hrest with hm | hm
      · exact hp '#' hm (by decide)
      · exact hq (by simpa using hm)
    · rw [List.append_assoc, List.cons_append, splitPath_fragment hf] at hfragment
      have hlt := length_fragment_lt hfragment.symm
      rw [List.length_append] at hlt
      omega
  · have hno : '#' ∉ kept := by
      intro hm
      rcases kept_cases kept with ⟨path, rfl, hp⟩ | ⟨path, q, rfl, hp, hq⟩ | ⟨front, f, rfl, hf⟩
      · exact hp '#' hm (by decide)
      · rcases List.mem_append.mp hm with hm | hm
        · exact hp '#' hm (by decide)
        · exact hq (by simpa using hm)
      · -- the result is in the fragment of the return path
        have hfront : '#' ∉ rest ++ front := by simp [hrest, hf]
        rw [behind, List.append_assoc, List.cons_append, ← List.append_assoc,
          splitPath_fragment hfront, splitPath_fragment hf] at hfragment
        have hlen := congrArg List.length (Option.some.inj hfragment)
        simp at hlen
    refine ⟨?_, hno⟩
    rcases kept_cases rest with ⟨path, rfl, hp⟩ | ⟨path, q, rfl, hp, hq⟩ | ⟨front, f, rfl, hf⟩
    · rw [splitPath_append hp, (splitPath_behind hresult hno).1] at hpath
      simpa using hpath
    · -- the return path is in the query of the frontend
      exfalso
      have hno' : '#' ∉ q ++ behind kept query := by
        have hsep : '#' ≠ (if '?' ∈ kept then '&' else '?') := by
          split <;> decide
        simp [behind, hq, hno, hsep, hresult.no_fragment]
      rw [List.append_assoc, List.cons_append, splitPath_query hp hno'] at hquery
      have hlen := congrArg (fun l => (List.flatten l).length) hquery
      have hres : ((query.map parameterText).flatten).length =
          (urlencode query).countP (· ≠ '&') := by
        rw [← hresult.words]
        exact length_parameters (some (urlencode query))
      simp only [List.flatten_append, List.length_append, length_parameters, hres,
        Option.getD_some, behind, List.countP_append, List.countP_cons] at hlen
      have hlt := countP_query_lt hkept hno
      omega
    · exact absurd (by simp) hrest

/-- The redirect carries its result exactly from an origin to a path without a fragment. -/
theorem carries_iff (hresult : IsResult query) (hkept : kept = '/' :: more)
    (hmore : more.head? ≠ some '/') :
    Carries settings.frontendUrl kept query
        (GoogleOAuthService.frontendRedirect settings kept query) ↔
      IsOrigin settings.frontendUrl ∧ '#' ∉ kept := by
  have hparse := parse_redirect settings hkept hmore query
  have hk := parse_kept hkept hmore
  constructor
  · rintro ⟨hscheme, hauthority, hpath, hquery, hfragment⟩
    rw [hparse] at hscheme hauthority hpath hquery hfragment
    rw [hk] at hpath hquery hfragment
    obtain ⟨hrest, hno⟩ := of_splitPath_eq hresult hkept hpath hquery hfragment
    have hbase : splitPath (relative (base settings.frontendUrl)) = ([], none, none) := by
      rw [hrest]
      rfl
    refine ⟨⟨hscheme, hauthority, ?_, ?_, ?_⟩, hno⟩
    all_goals rw [parse, hbase]
  · rintro ⟨horigin, hno⟩
    obtain ⟨hpath, hquery, hfragment⟩ := splitPath_behind hresult hno
    have hrest : relative (base settings.frontendUrl) = [] := by
      have hp := horigin.path
      have hq := horigin.query
      have hf := horigin.fragment
      rw [parse] at hp hq hf
      rcases kept_cases (relative (base settings.frontendUrl)) with
        ⟨path, he, hpath⟩ | ⟨path, q, he, hpath, hno⟩ | ⟨front, f, he, hfront⟩
      · rw [he, splitPath_path hpath] at hp
        rw [he]
        exact hp
      · rw [he, splitPath_query hpath hno] at hq
        cases hq
      · rw [he, splitPath_fragment hfront] at hf
        cases hf
    constructor
    · rw [hparse, ← horigin.scheme]
    · rw [hparse, ← horigin.authority]
    · rw [hparse, hk, hrest]
      exact hpath
    · rw [hparse, hk, hrest]
      exact hquery
    · rw [hparse, hk, hrest]
      exact hfragment

end

/-! ## Every flow -/

section
variable {T : Type} [Field T] [LinearOrder T] [FloorRing T]

open GoogleOAuthService

/-- The redirect of a flow that was begun. -/
structure Leads (isNetloc : List Char → Bool) (settings : GoogleOAuthSettings) (state : String)
    (query : List (String × String)) (url returnPath kept : List Char) (earlier : List Event) :
    Prop where
  flow : flowOf state earlier = some returnPath
  safe : safeReturnPath isNetloc returnPath = .ok kept
  result : query = successQuery ∨ ∃ providerError, query = errorQuery providerError
  url : url = frontendRedirect settings kept query

/-- The states are those of flows, and so are the redirects. -/
structure Flows (isNetloc : List Char → Bool) (settings : GoogleOAuthSettings) (s : State T) :
    Prop where
  states : ∀ (state : String) (e : Expiring.Entry T AuthOAuthState), s.states state = some e →
    ∃ returnPath, flowOf state s.log = some returnPath ∧
      safeReturnPath isNetloc returnPath = .ok e.value.returnPath
  redirects : ∀ (later earlier : List Event) (state : String) (query : List (String × String))
    (url : List Char), s.log = later ++ .redirected state query url :: earlier →
      ∃ returnPath kept, Leads isNetloc settings state query url returnPath kept earlier

variable {isNetloc : List Char → Bool} {settings : GoogleOAuthSettings}
  {authSettings : AuthSettings} {s s' : State T}

omit [Field T] [LinearOrder T] [FloorRing T] in
theorem flows_start (clock : T) : Flows isNetloc settings (start clock) where
  states _ _ h := nomatch h
  redirects later earlier _ _ _ h := by
    cases later with
    | nil => cases h
    | cons e later => cases h

omit [Field T] [FloorRing T] in
/-- A state that is used up leaves the others. -/
theorem Flows.consume (h : Flows isNetloc settings s) (state : String) :
    Flows isNetloc settings
      { s with states := (AuthOAuthStateRepository.consume s.clock state s.states).2 } where
  states state' e he := by
    obtain ⟨-, he⟩ := Expiring.update_none_some he
    exact h.states state' e he
  redirects := h.redirects

omit [Field T] [FloorRing T] in
/-- The redirect of a state that is there is that of its flow. -/
theorem Flows.redirect (h : Flows isNetloc settings s) {state : String} {value : AuthOAuthState}
    {query : List (String × String)}
    (hread : (AuthOAuthStateRepository.consume s.clock state s.states).1 = some value)
    (hresult : query = successQuery ∨ ∃ providerError, query = errorQuery providerError) :
    Flows isNetloc settings { s with
      states := (AuthOAuthStateRepository.consume s.clock state s.states).2
      log := .redirected state query (frontendRedirect settings value.returnPath query) ::
        s.log } where
  states state' e he := (h.consume state).states state' e he
  redirects later earlier state' query' url he := by
    cases later with
    | nil =>
        cases he
        obtain ⟨e, he, -, rfl⟩ := Expiring.Key.read_eq_some.mp hread
        obtain ⟨returnPath, hflow, hsafe⟩ := h.states state e he
        exact ⟨returnPath, e.value.returnPath, hflow, hsafe, hresult, rfl⟩
    | cons event later =>
        rw [List.cons_append] at he
        exact h.redirects later earlier state' query' url (List.cons.inj he).2

omit [LinearOrder T] [FloorRing T] in
theorem Flows.begin (h : Flows isNetloc settings s) {outside : GoogleOutside}
    {returnPath kept : List Char} {codeVerifier state : String}
    (hsafe : safeReturnPath isNetloc returnPath = .ok kept) :
    Flows isNetloc settings { s with
      states := (begin { outside with isNetloc := isNetloc } settings s.clock returnPath
        codeVerifier state s.states).2
      log := .begun state returnPath :: s.log } where
  states state' e he := by
    simp only [GoogleOAuthService.begin, hsafe, AuthOAuthStateRepository.issue] at he
    by_cases hstate : state' = state
    · subst hstate
      rw [Function.update_self] at he
      cases he
      exact ⟨returnPath, if_pos rfl, hsafe⟩
    · rw [Function.update_of_ne hstate] at he
      obtain ⟨returnPath', hflow, hsafe'⟩ := h.states state' e he
      exact ⟨returnPath', (if_neg (Ne.symm hstate)).trans hflow, hsafe'⟩
  redirects later earlier state' query url he := by
    cases later with
    | nil => cases he
    | cons event later =>
        rw [List.cons_append] at he
        exact h.redirects later earlier state' query url (List.cons.inj he).2

theorem Flows.step (h : Flows isNetloc settings s) {action : Action T}
    (hstep : s.step isNetloc settings authSettings action = some s') :
    Flows isNetloc settings s' := by
  cases action with
  | tick clock =>
      rw [State.step] at hstep
      split at hstep
      · cases hstep
        exact ⟨h.states, h.redirects⟩
      · cases hstep
  | begin outside returnPath codeVerifier state =>
      rw [State.step] at hstep
      cases hsafe : safeReturnPath isNetloc returnPath with
      | ok kept =>
          simp only [hsafe] at hstep
          cases hstep
          exact h.begin hsafe
      | error error =>
          simp only [hsafe, GoogleOAuthService.begin] at hstep
          cases hstep
          exact ⟨h.states, h.redirects⟩
  | complete outside code state familyId fresh =>
      have hstates : (complete outside settings authSettings s.clock code state familyId fresh
          s.states).2 = (AuthOAuthStateRepository.consume s.clock state s.states).2 :=
        complete_states
      cases hresult : complete outside settings authSettings s.clock code state familyId fresh
          s.states with
      | mk result states =>
          rw [hresult] at hstates
          change states = _ at hstates
          simp only [State.step, hresult] at hstep
          cases result with
          | ok completion =>
              obtain ⟨value, hread, hurl⟩ := complete_ok (congrArg Prod.fst hresult)
              cases hstep
              rw [hurl, hstates]
              exact h.redirect hread (.inl rfl)
          | error error =>
              cases hstep
              rw [hstates]
              exact h.consume state
  | cancel state providerError =>
      cases hread : (AuthOAuthStateRepository.consume s.clock state s.states).1 with
      | none =>
          simp only [State.step, cancel, hread] at hstep
          cases hstep
          exact h.consume state
      | some value =>
          simp only [State.step, cancel, hread] at hstep
          cases hstep
          exact h.redirect hread (.inr ⟨providerError, rfl⟩)

/-- In every run, a redirect is that of a flow that was begun, and it carries its result
exactly if the frontend is an origin and the return path that was kept has no fragment. -/
theorem redirects_carry_iff {clock : T}
    (hrun : Machine.Run (State.step isNetloc settings authSettings) (fun _ _ => True)
      (start clock) s)
    {later earlier : List Event} {state : String} {query : List (String × String)}
    {url : List Char} (hlog : s.log = later ++ .redirected state query url :: earlier) :
    ∃ returnPath kept, Leads isNetloc settings state query url returnPath kept earlier ∧
      (Carries settings.frontendUrl kept query url ↔
        IsOrigin settings.frontendUrl ∧ '#' ∉ kept) := by
  have hflows : Flows isNetloc settings s :=
    Machine.Run.invariant (fun _ _ _ h _ hstep => h.step hstep) hrun (flows_start clock)
  obtain ⟨returnPath, kept, hleads⟩ := hflows.redirects later earlier state query url hlog
  refine ⟨returnPath, kept, hleads, ?_⟩
  have hresult : IsResult query := by
    rcases hleads.result with rfl | ⟨providerError, rfl⟩
    · exact isResult_success
    · exact isResult_error providerError
  obtain ⟨more, hkept, hmore⟩ := safeReturnPath_ok hleads.safe
  rw [hleads.url]
  exact carries_iff hresult hkept hmore

end

/-! ## A fragment -/

def sampleSettings : GoogleOAuthSettings :=
  ⟨"http://localhost:3000".toList, 600, by decide, by decide⟩

theorem sampleExpiry_pos : 0 < 30 := by decide

def sampleAuthSettings : AuthSettings where
  accessTokenExpireMinutes := 30
  refreshTokenExpireDays := 30
  emailVerificationExpireMinutes := 60
  passwordResetExpireMinutes := 60
  accessTokenExpireMinutes_pos := sampleExpiry_pos
  refreshTokenExpireDays_pos := sampleExpiry_pos
  emailVerificationExpireMinutes_pos := AuthSettings.default.emailVerificationExpireMinutes_pos
  passwordResetExpireMinutes_pos := AuthSettings.default.emailVerificationExpireMinutes_pos

/-- Google and the accounts know Ada. -/
def sampleOutside : GoogleOutside :=
  { isNetloc := fun _ => true
    codeChallenge := id
    authorizationUrl := fun state _ => .ok state
    exchangeCode := fun _ _ => .ok ⟨"ada", "ada@example.com", "Ada", none⟩
    authenticateGoogle := fun profile =>
      .ok ⟨1, profile.email, "", profile.displayName, none, true, true, 0⟩ }

/-- A flow from the comments of a page and back. -/
def commentsFlow : List (Action ℚ) :=
  [.begin sampleOutside "/decisions#comments".toList "verifier" "state",
    .complete sampleOutside "code" "state" 2 ⟨3, 4⟩]

theorem commentsFlow_log : ∃ s : State ℚ,
    Machine.Run (State.step sampleOutside.isNetloc sampleSettings sampleAuthSettings)
      (fun _ _ => True) (start 0) s ∧
    s.log = [.redirected "state" GoogleOAuthService.successQuery
        "http://localhost:3000/decisions#comments?oauth=google&status=success".toList,
      .begun "state" "/decisions#comments".toList] := by
  have hplay : (Machine.play (State.step sampleOutside.isNetloc sampleSettings sampleAuthSettings)
      (fun _ _ => True) (start (0 : ℚ)) commentsFlow).map State.log =
        some [.redirected "state" GoogleOAuthService.successQuery
            "http://localhost:3000/decisions#comments?oauth=google&status=success".toList,
          .begun "state" "/decisions#comments".toList] := by
    decide +kernel
  obtain ⟨s, hs, hlog⟩ := Option.map_eq_some_iff.mp hplay
  exact ⟨s, .of_play hs, hlog⟩

theorem redirects_carry_iff_sample :
    ¬ Carries sampleSettings.frontendUrl "/decisions#comments".toList
      GoogleOAuthService.successQuery
      "http://localhost:3000/decisions#comments?oauth=google&status=success".toList := by
  obtain ⟨s, hrun, hlog⟩ := commentsFlow_log
  obtain ⟨returnPath, kept, hleads, hiff⟩ :=
    @redirects_carry_iff ℚ _ _ _ _ _ _ _ _ hrun [] _ _ _ _ hlog
  have hpath : "/decisions#comments".toList = returnPath := Option.some.inj hleads.flow
  have hkept : "/decisions#comments".toList = kept := by
    have hsafe := hleads.safe
    rw [← hpath] at hsafe
    have hsame : GoogleOAuthService.safeReturnPath sampleOutside.isNetloc
        "/decisions#comments".toList = .ok "/decisions#comments".toList := by decide +kernel
    exact Except.ok.inj (hsame.symm.trans hsafe)
  intro hcarries
  rw [hkept] at hcarries
  have hno := (hiff.mp hcarries).2
  rw [← hkept] at hno
  exact hno (by decide)

/-- The fragment takes the result with it. -/
theorem fragment_takes_result : ¬ ∀ (s : State ℚ) (later earlier : List Event) (state : String)
    (query : List (String × String)) (url returnPath kept : List Char),
    Machine.Run (State.step sampleOutside.isNetloc sampleSettings sampleAuthSettings)
      (fun _ _ => True) (start 0) s →
    s.log = later ++ .redirected state query url :: earlier →
    Leads sampleOutside.isNetloc sampleSettings state query url returnPath kept earlier →
    Carries sampleSettings.frontendUrl kept query url := by
  intro h
  obtain ⟨s, hrun, hlog⟩ := commentsFlow_log
  have hcarries := h s [] _ _ _ _ "/decisions#comments".toList "/decisions#comments".toList hrun
    hlog ⟨by decide, by decide +kernel, .inl rfl, by decide +kernel⟩
  have hpath := hcarries.fragment
  revert hpath
  decide +kernel

end GoogleOauth

end ForkRoom
