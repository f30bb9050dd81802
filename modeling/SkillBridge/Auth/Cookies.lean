import Mathlib.Data.List.DropRight
import SkillBridge.Auth.SignupRole
import SkillBridge.Utils.Uri

set_option autoImplicit false

/-! `readCookie` of `auth.cookies.ts`, on the text of the `Cookie` header. -/

namespace SkillBridge.Cookies

open Uri

def ACCESS_TOKEN_COOKIE := "access_token"
def REFRESH_TOKEN_COOKIE := "refresh_token"

def COOKIE_NAMES : List String := [ACCESS_TOKEN_COOKIE, REFRESH_TOKEN_COOKIE, OAUTH_SIGNUP_ROLE_COOKIE]

def startsWith (entry start : String) : Bool := start.toList.isPrefixOf entry.toList

def readCookie (cookieHeader : Option String) (cookieName : String) : Except Failure (Option String) :=
  match cookieHeader with
  | none => .ok none
  | some cookieHeader =>
    if cookieHeader = "" then .ok none
    else
      let cookies := (cookieHeader.toList.splitOn ';').map fun cookie => trim (String.ofList cookie)
      match cookies.find? fun entry => startsWith entry (cookieName ++ "=") with
      | none => .ok none
      | some cookie =>
        if cookie = "" then .ok none
        else
          let value := String.ofList (cookie.toList.drop (cookieName.length + 1))
          if value = "" then .ok none
          else
            match decodeURIComponent value with
            | .ok text => .ok (some text)
            | .error _ => .ok none

/-- The header that a client sends for these pairs of names and values. -/
def buildHeader (pairs : List (String × String)) : String :=
  String.ofList ([';', ' '].intercalate (pairs.map fun pair => pair.1.toList ++ '=' :: pair.2.toList))

/-- An entry has the name that stands before its first `=`. -/
def parseEntry (entry : String) : Option (String × String) :=
  match entry.toList.dropWhile (· ≠ '=') with
  | [] => none
  | _ :: value => some (String.ofList (entry.toList.takeWhile (· ≠ '=')), String.ofList value)

def cookiePairs (cookieHeader : String) : List (String × String) :=
  (cookieHeader.toList.splitOn ';').filterMap fun cookie => parseEntry (trim (String.ofList cookie))

def trimStart (s : String) : String := String.ofList (s.toList.dropWhile isJsSpace)

def trimEnd (s : String) : String := String.ofList (s.toList.rdropWhile isJsSpace)

section Entries

variable {name value : List Char}

theorem takeWhile_name (h : '=' ∉ name) : (name ++ '=' :: value).takeWhile (· ≠ '=') = name := by
  rw [List.takeWhile_append_of_pos, List.takeWhile_cons_of_neg (by simp), List.append_nil]
  intro c hc
  simpa using ne_of_mem_of_not_mem hc h

theorem dropWhile_name (h : '=' ∉ name) : (name ++ '=' :: value).dropWhile (· ≠ '=') = '=' :: value := by
  rw [List.dropWhile_append_of_pos, List.dropWhile_cons_of_neg (by simp)]
  intro c hc
  simpa using ne_of_mem_of_not_mem hc h

theorem parseEntry_append (h : '=' ∉ name) :
    parseEntry (String.ofList (name ++ '=' :: value)) = some (String.ofList name, String.ofList value) := by
  simp only [parseEntry, String.toList_ofList, dropWhile_name h, takeWhile_name h]

theorem append_of_parseEntry {entry n v : String} (h : parseEntry entry = some (n, v)) :
    entry.toList = n.toList ++ '=' :: v.toList := by
  unfold parseEntry at h
  split at h
  · cases h
  · rename_i c value hdrop
    obtain ⟨rfl, rfl⟩ := Prod.mk.inj (Option.some.inj h)
    have hc : c = '=' := by
      have hhead : (entry.toList.dropWhile (· ≠ '=')).head? = some c := by rw [hdrop, List.head?_cons]
      have := List.head?_dropWhile_not (fun d : Char => decide (d ≠ '=')) entry.toList
      rw [hhead] at this
      simpa using this
    subst hc
    rw [String.toList_ofList, String.toList_ofList, ← hdrop, List.takeWhile_append_dropWhile]

theorem startsWith_iff {cookieName : String} (h : '=' ∉ cookieName.toList) (entry : String) :
    startsWith entry (cookieName ++ "=") = true ↔ ∃ v, parseEntry entry = some (cookieName, v) := by
  rw [startsWith, List.isPrefixOf_iff_prefix, String.toList_append]
  constructor
  · rintro ⟨v, hv⟩
    refine ⟨String.ofList v, ?_⟩
    have hentry : entry = String.ofList (cookieName.toList ++ '=' :: v) := by
      rw [← String.ofList_toList (s := entry), ← hv, List.append_assoc]
      rfl
    rw [hentry, parseEntry_append h, String.ofList_toList]
  · rintro ⟨v, hv⟩
    refine ⟨v.toList, ?_⟩
    rw [append_of_parseEntry hv, List.append_assoc]
    rfl

end Entries

theorem find_lookup {cookieName : String} (h : '=' ∉ cookieName.toList) (entries : List String) :
    (entries.find? fun entry => startsWith entry (cookieName ++ "=")).map
        (fun entry => String.ofList (entry.toList.drop (cookieName.length + 1))) =
      (entries.filterMap parseEntry).lookup cookieName := by
  induction entries with
  | nil => rfl
  | cons entry entries ih =>
    cases hstart : startsWith entry (cookieName ++ "=") with
    | true =>
      obtain ⟨v, hv⟩ := (startsWith_iff h entry).mp hstart
      have hdrop : entry.toList.drop (cookieName.length + 1) = v.toList := by
        rw [append_of_parseEntry hv, ← String.length_toList]
        simp
      simp [hstart, hv, hdrop]
    | false =>
      simp only [List.find?_cons, hstart, ih]
      cases hv : parseEntry entry with
      | none => rw [List.filterMap_cons_none hv]
      | some pair =>
        have hne : cookieName ≠ pair.1 := by
          intro heq
          have := (startsWith_iff h entry).mpr ⟨pair.2, by rw [hv, heq]⟩
          rw [hstart] at this
          cases this
        rw [List.filterMap_cons_some hv, List.lookup_cons, beq_false_of_ne hne]

theorem cookiePairs_empty : cookiePairs "" = [] := by
  simp [cookiePairs, parseEntry, trim]

theorem readCookie_eq {cookieName : String} (h : '=' ∉ cookieName.toList) (cookieHeader : String) :
    readCookie (some cookieHeader) cookieName = .ok (((cookiePairs cookieHeader).lookup cookieName).bind fun value =>
      if value = "" then none else (decodeURIComponent value).toOption) := by
  by_cases hempty : cookieHeader = ""
  · simp only [hempty, cookiePairs_empty, readCookie, ↓reduceIte, List.lookup_nil, Option.bind_none]
  · have hpairs : cookiePairs cookieHeader =
        ((cookieHeader.toList.splitOn ';').map fun cookie => trim (String.ofList cookie)).filterMap parseEntry := by
      simp only [cookiePairs, List.filterMap_map, Function.comp_def]
    rw [hpairs, ← find_lookup h, readCookie, if_neg hempty]
    dsimp only
    generalize (cookieHeader.toList.splitOn ';').map (fun cookie => trim (String.ofList cookie)) = cookies
    cases cookies.find? fun entry => startsWith entry (cookieName ++ "=") with
    | none => rfl
    | some cookie =>
      rw [Option.map_some, Option.bind_some]
      by_cases hvalue : String.ofList (cookie.toList.drop (cookieName.length + 1)) = ""
      · simp only [hvalue, ↓reduceIte, ite_self]
      · have hcookie : cookie ≠ "" := by
          rintro rfl
          simp at hvalue
        simp only [hvalue, hcookie, ↓reduceIte]
        cases decodeURIComponent (String.ofList (cookie.toList.drop (cookieName.length + 1))) <;> rfl

section Build

theorem dropWhile_pair (name value : List Char) :
    (name ++ '=' :: value).dropWhile isJsSpace = name.dropWhile isJsSpace ++ '=' :: value := by
  have hvalue : ('=' :: value).dropWhile isJsSpace = '=' :: value := List.dropWhile_cons_of_neg (by decide)
  rw [List.dropWhile_append, hvalue]
  split_ifs with hempty
  · rw [List.isEmpty_iff.mp hempty, List.nil_append]
  · rfl

theorem trim_pair (name value : List Char) : trim (String.ofList (name ++ '=' :: value)) =
    String.ofList (name.dropWhile isJsSpace ++ '=' :: value.rdropWhile isJsSpace) := by
  have hrev : (name.dropWhile isJsSpace ++ '=' :: value).reverse =
      value.reverse ++ '=' :: (name.dropWhile isJsSpace).reverse := by simp
  rw [trim, String.toList_ofList, dropWhile_pair, hrev, dropWhile_pair]
  simp [List.rdropWhile]

theorem parseEntry_pair {name : List Char} (h : '=' ∉ name) (value : List Char) :
    parseEntry (trim (String.ofList (name ++ '=' :: value))) =
      some (String.ofList (name.dropWhile isJsSpace), String.ofList (value.rdropWhile isJsSpace)) := by
  rw [trim_pair, parseEntry_append fun hmem => h (List.dropWhile_sublist _ |>.subset hmem)]

theorem trim_space (entry : List Char) : trim (String.ofList (' ' :: entry)) = trim (String.ofList entry) := by
  have hspace : (' ' :: entry).dropWhile isJsSpace = entry.dropWhile isJsSpace :=
    List.dropWhile_cons_of_pos (by decide)
  rw [trim, trim, String.toList_ofList, String.toList_ofList, hspace]

theorem intercalate_space (entry : List Char) (entries : List (List Char)) :
    [';', ' '].intercalate (entry :: entries) = [';'].intercalate (entry :: entries.map fun e => ' ' :: e) := by
  induction entries generalizing entry with
  | nil => rfl
  | cons e entries ih =>
    rw [List.intercalate_cons_cons, ih, List.map_cons, List.intercalate_cons_cons, List.intercalate_cons_cons_left]
    simp

theorem parse_entry {pair : String × String} (h : '=' ∉ pair.1.toList) :
    parseEntry (trim (String.ofList (pair.1.toList ++ '=' :: pair.2.toList))) =
      some (trimStart pair.1, trimEnd pair.2) := parseEntry_pair h _

theorem cookiePairs_build {pairs : List (String × String)}
    (h : ∀ pair ∈ pairs, ';' ∉ pair.1.toList ∧ ';' ∉ pair.2.toList ∧ '=' ∉ pair.1.toList) :
    cookiePairs (buildHeader pairs) = pairs.map fun pair => (trimStart pair.1, trimEnd pair.2) := by
  cases pairs with
  | nil => exact cookiePairs_empty
  | cons pair pairs =>
    have hsplit : ∀ entry ∈ (pair.1.toList ++ '=' :: pair.2.toList) ::
        (pairs.map fun p => p.1.toList ++ '=' :: p.2.toList).map (fun e => ' ' :: e), ';' ∉ entry := by
      intro entry hentry
      rw [List.map_map, List.mem_cons, List.mem_map] at hentry
      rcases hentry with rfl | ⟨p, hp, rfl⟩
      · have := h pair List.mem_cons_self
        simp [this.1, this.2.1]
      · have := h p (List.mem_cons_of_mem _ hp)
        simp [this.1, this.2.1]
    have hhead := parse_entry (h pair List.mem_cons_self).2.2
    have htail : (pairs.filterMap fun p => parseEntry (trim (String.ofList (' ' :: (p.1.toList ++ '=' :: p.2.toList))))) =
        pairs.map fun p => (trimStart p.1, trimEnd p.2) := by
      rw [← List.filterMap_eq_map]
      apply List.filterMap_congr
      intro p hp
      rw [trim_space, parse_entry (h p (List.mem_cons_of_mem _ hp)).2.2]
      rfl
    rw [cookiePairs, buildHeader, String.toList_ofList, List.map_cons, intercalate_space,
      List.splitOn_intercalate ';' hsplit (List.cons_ne_nil _ _)]
    simp only [List.filterMap_cons, hhead, List.map_cons, List.map_map, List.filterMap_map, Function.comp_def, htail]

end Build

theorem notSpace_of_plain {c : Char} (h : Plain c) : isJsSpace c = false := by
  obtain ⟨hlow, hhigh, -, -⟩ := h
  simp only [isJsSpace, List.mem_cons, List.not_mem_nil, or_false, Bool.or_eq_false_iff, decide_eq_false_iff_not,
    Bool.and_eq_false_iff]
  omega

theorem trimEnd_plain {s : String} (h : ∀ c ∈ s.toList, Plain c) : trimEnd s = s := by
  have hlast : s.toList.rdropWhile isJsSpace = s.toList := by
    rw [List.rdropWhile_eq_self_iff]
    intro hne
    simp [notSpace_of_plain (h _ (List.getLast_mem hne))]
  rw [trimEnd, hlast, String.ofList_toList]

theorem cookie_name {name : String} (h : name ∈ COOKIE_NAMES) :
    '=' ∉ name.toList ∧ ';' ∉ name.toList ∧ trimStart name = name := by
  simp only [COOKIE_NAMES, List.mem_cons, List.not_mem_nil, or_false] at h
  rcases h with rfl | rfl | rfl <;> decide

theorem readCookie_encoded {name : String} (hname : name ∈ COOKIE_NAMES) {v : String} (hv : v ≠ "")
    {before after : List (String × String)}
    (hpairs : ∀ pair ∈ before ++ after, ';' ∉ pair.1.toList ∧ ';' ∉ pair.2.toList ∧ '=' ∉ pair.1.toList)
    (hbefore : ∀ pair ∈ before, trimStart pair.1 ≠ name) :
    readCookie (some (buildHeader (before ++ (name, encodeURIComponent v) :: after))) name = .ok (some v) := by
  obtain ⟨hequals, hsemicolon, htrim⟩ := cookie_name hname
  have hplain := plain_encodeURIComponent v
  have hall : ∀ pair ∈ before ++ (name, encodeURIComponent v) :: after,
      ';' ∉ pair.1.toList ∧ ';' ∉ pair.2.toList ∧ '=' ∉ pair.1.toList := by
    intro pair hpair
    rcases List.mem_append.mp hpair with hpair | hpair
    · exact hpairs pair (List.mem_append_left _ hpair)
    · rcases List.mem_cons.mp hpair with rfl | hpair
      · exact ⟨hsemicolon, fun hmem => (hplain _ hmem).2.2.1 rfl, hequals⟩
      · exact hpairs pair (List.mem_append_right _ hpair)
  have hlookup : (cookiePairs (buildHeader (before ++ (name, encodeURIComponent v) :: after))).lookup name =
      some (encodeURIComponent v) := by
    rw [cookiePairs_build hall, List.map_append, List.map_cons, htrim, trimEnd_plain hplain,
      List.lookup_eq_some_iff]
    refine ⟨_, _, rfl, fun entry hentry => ?_⟩
    obtain ⟨pair, hpair, rfl⟩ := List.mem_map.mp hentry
    simpa using (hbefore pair hpair).symm
  rw [readCookie_eq hequals, hlookup, Option.bind_some, if_neg (encodeURIComponent_ne_empty hv), decode_encode]
  rfl

/-- Leading white space is no part of a name for `readCookie`, so a name of another cookie may become this one. -/
theorem padded_name_read : ¬ ∀ name ∈ COOKIE_NAMES, ∀ v : String, v ≠ "" → ∀ before after : List (String × String),
    (∀ pair ∈ before ++ after, ';' ∉ pair.1.toList ∧ ';' ∉ pair.2.toList ∧ '=' ∉ pair.1.toList ∧ pair.1 ≠ name) →
    readCookie (some (buildHeader (before ++ (name, encodeURIComponent v) :: after))) name = .ok (some v) := by
  intro h
  have hread := h ACCESS_TOKEN_COOKIE (by decide) "good" (by decide) [(" access_token", "evil")] [] (by decide)
  have hgood : encodeURIComponent "good" = "good" := by decide +kernel
  have hevil : decodeURIComponent "evil" = .ok "evil" := by
    have henc : encodeURIComponent "evil" = "evil" := by decide +kernel
    rw [← henc, decode_encode, henc]
  have hpairs : cookiePairs (buildHeader [(" access_token", "evil"), (ACCESS_TOKEN_COOKIE, "good")]) =
      [(ACCESS_TOKEN_COOKIE, "evil"), (ACCESS_TOKEN_COOKIE, "good")] := by
    rw [cookiePairs_build (by decide)]
    decide
  have hlookup : (cookiePairs (buildHeader [(" access_token", "evil"), (ACCESS_TOKEN_COOKIE, "good")])).lookup
      ACCESS_TOKEN_COOKIE = some "evil" := by
    rw [hpairs]
    decide
  rw [hgood, List.singleton_append, readCookie_eq (by decide), hlookup, Option.bind_some, if_neg (by decide),
    hevil] at hread
  exact absurd hread (by decide)

/-- `readCookie` never throws, and what it returns is decoded from the first entry of that name. -/
theorem cookie_round_trip :
    (∀ name ∈ COOKIE_NAMES, ∀ v : String, v ≠ "" → ∀ before after : List (String × String),
      (∀ pair ∈ before ++ after, ';' ∉ pair.1.toList ∧ ';' ∉ pair.2.toList ∧ '=' ∉ pair.1.toList) →
      (∀ pair ∈ before, trimStart pair.1 ≠ name) →
      readCookie (some (buildHeader (before ++ (name, encodeURIComponent v) :: after))) name = .ok (some v)) ∧
    ∀ name ∈ COOKIE_NAMES, ∀ cookieHeader : Option String, readCookie cookieHeader name = .ok none ∨
      ∃ header value text, cookieHeader = some header ∧ (cookiePairs header).lookup name = some value ∧
        decodeURIComponent value = .ok text ∧ readCookie cookieHeader name = .ok (some text) := by
  refine ⟨fun name hname v hv before after => readCookie_encoded hname hv, fun name hname cookieHeader => ?_⟩
  cases cookieHeader with
  | none => exact .inl rfl
  | some header =>
    rw [readCookie_eq (cookie_name hname).1]
    cases hlookup : (cookiePairs header).lookup name with
    | none => exact .inl rfl
    | some value =>
      rw [Option.bind_some]
      split_ifs with hvalue
      · exact .inl rfl
      · cases hdecode : decodeURIComponent value with
        | error e => exact .inl rfl
        | ok text => exact .inr ⟨header, value, text, rfl, hlookup, hdecode, rfl⟩

theorem refresh_token_read_back : readCookie (some (buildHeader
    ([("my_refresh_token", "a"), ("refresh_token_old", "b=c"), ("", "")] ++
      (REFRESH_TOKEN_COOKIE, encodeURIComponent "x; y=100%") :: [(" refresh_token", "z")]))) REFRESH_TOKEN_COOKIE =
    .ok (some "x; y=100%") :=
  cookie_round_trip.1 REFRESH_TOKEN_COOKIE (by decide) "x; y=100%" (by decide) _ _ (by decide) (by decide)

section Decoded

def decodedPairs (cookieHeader : String) : List (String × String) :=
  (cookiePairs cookieHeader).map fun pair => (pair.1, (decodeURIComponent pair.2).toOption.getD "")

theorem decode_empty : decodeURIComponent "" = .ok "" := by
  have henc : encodeURIComponent "" = "" := by decide
  rw [← henc, decode_encode, henc]

theorem lookup_decoded (name : String) (pairs : List (String × String)) :
    (pairs.map fun pair => (pair.1, (decodeURIComponent pair.2).toOption.getD "")).lookup name =
      (pairs.lookup name).map fun value => (decodeURIComponent value).toOption.getD "" := by
  induction pairs with
  | nil => rfl
  | cons pair pairs ih =>
    rw [List.map_cons, List.lookup_cons, List.lookup_cons, ih]
    cases name == pair.1 <;> rfl

/-- The decoded entries are what the sign-up flows are modelled on. -/
theorem readCookie_decoded {name : String} (hname : name ∈ COOKIE_NAMES) (cookieHeader : String) :
    readCookie (some cookieHeader) name = .ok (SkillBridge.readCookie (decodedPairs cookieHeader) name) := by
  rw [readCookie_eq (cookie_name hname).1, SkillBridge.readCookie, decodedPairs, lookup_decoded]
  cases (cookiePairs cookieHeader).lookup name with
  | none => rfl
  | some value =>
    rw [Option.bind_some, Option.map_some]
    split_ifs with hvalue
    · rw [hvalue, decode_empty]
      rfl
    · cases hdecode : decodeURIComponent value with
      | error e => rfl
      | ok text =>
        have hne : text ≠ "" := by
          rintro rfl
          exact decode_ne_empty hvalue hdecode
        simp [Except.toOption, Option.filter, hne]

end Decoded

end SkillBridge.Cookies
