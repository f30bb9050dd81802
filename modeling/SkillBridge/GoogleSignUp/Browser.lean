import SkillBridge.Api.Http

set_option autoImplicit false

/-! One browser that signs up with Google: its cookie `oauth_signup_role` and the flows it has started. -/

namespace SkillBridge

structure StoredCookie where
  value : String
  options : CookieOptions
  age : ℕ

structure Browser where
  https : Bool
  oauth_signup_role : Option StoredCookie := none

namespace Browser

variable (browser : Browser)

/-- A `Secure` cookie is neither stored nor sent over plain HTTP. -/
def allows (options : CookieOptions) : Bool := !options.secure || browser.https

def receive : SetCookie → Browser
  | .set value options =>
    if browser.allows options then { browser with oauth_signup_role := some ⟨value, options, 0⟩ } else browser
  | .clear options => if browser.allows options then { browser with oauth_signup_role := none } else browser

def wait (ms : ℕ) : Browser :=
  { browser with
    oauth_signup_role := (browser.oauth_signup_role.map fun cookie => { cookie with age := cookie.age + ms }).filter
      fun cookie => cookie.age < cookie.options.maxAge }

/-- The cookies of a top-level GET navigation that another site has redirected the browser to. -/
def crossSiteCookies : List (String × String) :=
  match browser.oauth_signup_role with
  | some cookie =>
    if cookie.options.sameSite ≠ .strict && browser.allows cookie.options then
      [(OAUTH_SIGNUP_ROLE_COOKIE, cookie.value)]
    else []
  | none => []

end Browser

inductive BrowserStep
  | startSignup (role : String)
  | start
  | abandon (flow : ℕ)
  | callback (flow : ℕ)
  | wait (ms : ℕ)

/-- The flows that are not abandoned, each with the role of the path it was started at. -/
structure GoogleSession where
  browser : Browser
  flows : List (Option OAuthSignupRole)

namespace GoogleSession

variable (cookies : CookieEnv) (session : GoogleSession)

def start (path : String) (role : Option String) : GoogleSession :=
  match GoogleOAuthGuard.canActivate cookies path role with
  | .ok cookie => ⟨cookie.elim session.browser session.browser.receive,
      session.flows ++ [normalizeOAuthSignupRole role]⟩
  | .error _ => session

/-- `googleAuthRedirect` clears the cookie whether it signs a user in or not. -/
def perform : BrowserStep → Option GoogleSession
  | .startSignup role => some (session.start cookies s!"/api/v1/auth/google/signup/{role}" (some role))
  | .start => some (session.start cookies "/api/v1/auth/google" none)
  | .abandon flow => some ⟨session.browser, session.flows.eraseIdx flow⟩
  | .callback flow => session.flows[flow]?.map fun _ =>
    ⟨session.browser.receive (clearOAuthSignupRoleCookie cookies), session.flows⟩
  | .wait ms => some ⟨session.browser.wait ms, session.flows⟩

def after (https : Bool) : List BrowserStep → Option GoogleSession
  | [] => some ⟨{ https }, []⟩
  | step :: steps => (after https steps).bind fun session => session.perform cookies step

def signupRoleCookie : Option String :=
  readCookie session.browser.crossSiteCookies OAUTH_SIGNUP_ROLE_COOKIE

end GoogleSession

/-- The role that was started with last, with the time since then: no callback has come in between, and it is
at most ten minutes old. -/
def carried : List BrowserStep → Option (OAuthSignupRole × ℕ)
  | [] => none
  | .startSignup role :: steps =>
    match normalizeOAuthSignupRole (some role) with
    | some role => some (role, 0)
    | none => carried steps
  | .callback _ :: _ => none
  | .wait ms :: steps => ((carried steps).map fun entry => (entry.1, entry.2 + ms)).filter
    fun entry => entry.2 < OAUTH_SIGNUP_ROLE_MAX_AGE_MS
  | _ :: steps => carried steps

structure CookieEnv.ReturnsCookies (cookies : CookieEnv) (https : Bool) : Prop where
  sameSite : authCookieSameSite cookies ≠ .strict
  secure : authCookieSecure cookies = true → https = true

instance (cookies : CookieEnv) (https : Bool) : Decidable (cookies.ReturnsCookies https) :=
  decidable_of_iff (authCookieSameSite cookies ≠ .strict ∧ (authCookieSecure cookies = true → https = true))
    ⟨fun h => ⟨h.1, h.2⟩, fun h => ⟨h.sameSite, h.secure⟩⟩

variable {cookies : CookieEnv} {https : Bool}

def roleCookie (cookies : CookieEnv) (entry : OAuthSignupRole × ℕ) : StoredCookie :=
  ⟨entry.1.value, buildOAuthSignupRoleCookieOptions cookies, entry.2⟩

theorem canActivate_signup (role : String) :
    GoogleOAuthGuard.canActivate cookies s!"/api/v1/auth/google/signup/{role}" (some role) =
      match normalizeOAuthSignupRole (some role) with
      | some normalizedRole => .ok (some (setOAuthSignupRoleCookie cookies normalizedRole))
      | none => .error (badRequestError ErrorMessages.INVALID_OAUTH_SIGNUP_ROLE) := by
  have hpath : "/google/signup/".toList <:+: (s!"/api/v1/auth/google/signup/{role}").toList := by
    refine ⟨"/api/v1/auth".toList, role.toList, ?_⟩
    simp [toString, String.toList_append]
  unfold GoogleOAuthGuard.canActivate
  refine (if_pos hpath).trans ?_
  cases hrole : normalizeOAuthSignupRole (some role) <;> simp only [hrole]

theorem canActivate_google :
    GoogleOAuthGuard.canActivate cookies "/api/v1/auth/google" none = .ok none := by
  unfold GoogleOAuthGuard.canActivate
  rw [if_neg (by decide +kernel)]

theorem readCookie_role (role : OAuthSignupRole) :
    readCookie [(OAUTH_SIGNUP_ROLE_COOKIE, role.value)] OAUTH_SIGNUP_ROLE_COOKIE = some role.value := by
  cases role <;> decide +kernel

namespace GoogleSession

theorem allows_iff {browser : Browser} (h : browser.https = https) :
    browser.allows (buildOAuthSignupRoleCookieOptions cookies) = true ↔
      (authCookieSecure cookies = true → https = true) := by
  subst h
  simp only [Browser.allows, buildOAuthSignupRoleCookieOptions]
  cases authCookieSecure cookies <;> simp

/-- The browser holds the cookie of the role that is carried, as far as it takes cookies at all. -/
structure Holds (cookies : CookieEnv) (https : Bool) (entry : Option (OAuthSignupRole × ℕ))
    (browser : Browser) : Prop where
  https_eq : browser.https = https
  cookie : browser.oauth_signup_role = if authCookieSecure cookies = true → https = true then
    entry.map (roleCookie cookies) else none

variable {browser : Browser} {entry : Option (OAuthSignupRole × ℕ)}

theorem Holds.set (h : Holds cookies https entry browser) (role : OAuthSignupRole) :
    Holds cookies https (some (role, 0)) (browser.receive (setOAuthSignupRoleCookie cookies role)) := by
  have hallows := @allows_iff cookies _ _ h.https_eq
  simp only [setOAuthSignupRoleCookie, Browser.receive]
  by_cases hsecure : authCookieSecure cookies = true → https = true
  · rw [if_pos (hallows.mpr hsecure)]
    exact ⟨h.https_eq, by rw [if_pos hsecure]; rfl⟩
  · rw [if_neg fun ha => hsecure (hallows.mp ha)]
    exact ⟨h.https_eq, by rw [h.cookie, if_neg hsecure, if_neg hsecure]⟩

theorem Holds.clear (h : Holds cookies https entry browser) :
    Holds cookies https none (browser.receive (clearOAuthSignupRoleCookie cookies)) := by
  have hallows := @allows_iff cookies _ _ h.https_eq
  simp only [clearOAuthSignupRoleCookie, Browser.receive]
  by_cases hsecure : authCookieSecure cookies = true → https = true
  · rw [if_pos (hallows.mpr hsecure)]
    exact ⟨h.https_eq, by rw [if_pos hsecure]; rfl⟩
  · rw [if_neg fun ha => hsecure (hallows.mp ha)]
    exact ⟨h.https_eq, by rw [h.cookie, if_neg hsecure, if_neg hsecure]⟩

theorem Holds.wait (h : Holds cookies https entry browser) (ms : ℕ) :
    Holds cookies https ((entry.map fun entry => (entry.1, entry.2 + ms)).filter
      fun entry => entry.2 < OAUTH_SIGNUP_ROLE_MAX_AGE_MS) (browser.wait ms) := by
  refine ⟨h.https_eq, ?_⟩
  simp only [Browser.wait, h.cookie]
  split_ifs
  · cases entry with
    | none => rfl
    | some entry =>
      simp only [Option.map_some, Option.filter_some, roleCookie, buildOAuthSignupRoleCookieOptions]
      split_ifs <;> rfl
  · rfl

theorem holds_carried {steps : List BrowserStep} {session : GoogleSession}
    (h : after cookies https steps = some session) : Holds cookies https (carried steps) session.browser := by
  induction steps generalizing session with
  | nil =>
    cases h
    exact ⟨rfl, by simp [carried]⟩
  | cons step steps ih =>
    obtain ⟨before, hbefore, hstep⟩ := Option.bind_eq_some_iff.mp h
    have hold := ih hbefore
    cases step with
    | startSignup role =>
      obtain rfl := Option.some.inj hstep
      simp only [start, carried, canActivate_signup]
      cases normalizeOAuthSignupRole (some role) with
      | none => exact hold
      | some role => exact hold.set role
    | start =>
      obtain rfl := Option.some.inj hstep
      simp only [start, canActivate_google]
      exact hold
    | abandon flow =>
      obtain rfl := Option.some.inj hstep
      exact hold
    | callback flow =>
      obtain ⟨origin, -, rfl⟩ := Option.map_eq_some_iff.mp hstep
      exact hold.clear
    | wait ms =>
      obtain rfl := Option.some.inj hstep
      exact hold.wait ms

theorem signupRoleCookie_eq {steps : List BrowserStep} {session : GoogleSession}
    (h : after cookies https steps = some session) :
    session.signupRoleCookie =
      if cookies.ReturnsCookies https then (carried steps).map fun entry => entry.1.value else none := by
  have hold := holds_carried h
  have hallows := @allows_iff cookies _ _ hold.https_eq
  by_cases hreturns : cookies.ReturnsCookies https
  · rw [if_pos hreturns]
    simp only [signupRoleCookie, Browser.crossSiteCookies, hold.cookie, if_pos hreturns.secure]
    cases carried steps with
    | none => rfl
    | some entry =>
      have hsends : (decide ((buildOAuthSignupRoleCookieOptions cookies).sameSite ≠ .strict) &&
          session.browser.allows (buildOAuthSignupRoleCookieOptions cookies)) = true := by
        rw [hallows.mpr hreturns.secure, Bool.and_true, decide_eq_true_eq]
        exact hreturns.sameSite
      simp only [Option.map_some, roleCookie]
      rw [if_pos hsends, readCookie_role]
  · rw [if_neg hreturns]
    simp only [signupRoleCookie, Browser.crossSiteCookies, hold.cookie]
    by_cases hsecure : authCookieSecure cookies = true → https = true
    · rw [if_pos hsecure]
      have hstrict : authCookieSameSite cookies = .strict := by
        by_contra hne
        exact hreturns ⟨hne, hsecure⟩
      cases carried steps with
      | none => rfl
      | some entry => simp [roleCookie, buildOAuthSignupRoleCookieOptions, hstrict, readCookie]
    · rw [if_neg hsecure]
      rfl

theorem normalize_signupRoleCookie {steps : List BrowserStep} {session : GoogleSession}
    (h : after cookies https steps = some session) : normalizeOAuthSignupRole session.signupRoleCookie =
      if cookies.ReturnsCookies https then (carried steps).map Prod.fst else none := by
  rw [signupRoleCookie_eq h]
  split_ifs
  · cases carried steps <;> simp
  · rfl

end GoogleSession

end SkillBridge
