/-
The API key in the URL.

The joined URL is a body and a tail, where the tail is empty or starts at the
first `#`. `insert_api_key_eq` says that the key goes between them behind `&` or
`?`, by whether the body has a query. As the escaped key contains no separator,
splitting the result is splitting the URL and one part more.
-/
import OpenMeteo.HttpBody

set_option autoImplicit false

namespace OpenMeteo

open StringView UrlText

/-! ## The insertion -/

/-- Body and tail of a URL. -/
theorem url_body_tail (url : Bytes) :
    ∃ body tail, url = body ++ tail ∧ 35 ∉ body ∧ (tail = [] ∨ ∃ rest, tail = 35 :: rest) := by
  rcases splitFirst_spec 35 url with ⟨hnot, -⟩ | ⟨before, after, hnot, rfl, -⟩
  · exact ⟨url, [], (List.append_nil url).symm, hnot, Or.inl rfl⟩
  · exact ⟨before, 35 :: after, rfl, hnot, Or.inr ⟨after, rfl⟩⟩

/-- The part of the query that carries the key. -/
def api_key_part (encoded : Bytes) : Bytes := text "apikey=" ++ encoded

/-- **Where the key goes**: behind the body, and before the tail. -/
theorem insert_api_key_eq {body tail : Bytes} (hbody : 35 ∉ body)
    (htail : tail = [] ∨ ∃ rest, tail = 35 :: rest) (encoded : Bytes) :
    insert_api_key (body ++ tail) encoded
      = body ++ (if 63 ∈ body then 38 else 63) :: api_key_part encoded ++ tail := by
  -- with or without a fragment, the insertion point is the end of the body
  have hstop : (find (body ++ tail) 35).getD (body ++ tail).length = body.length := by
    rcases htail with rfl | ⟨rest, rfl⟩
    · rw [List.append_nil, find_eq_none.mpr hbody, Option.getD_none]
    · rw [find_append hbody, Option.getD_some]
  have hbefore : substr (body ++ tail) 0 body.length = body := by
    rw [substr, List.drop_zero, List.take_left]
  unfold insert_api_key
  simp only [hstop, hbefore, find_eq_none, insert_append]
  by_cases hquery : 63 ∈ body
  · simp [hquery, api_key_part]
  · simp [hquery, api_key_part]

theorem api_key_part_not_mem {c : UInt8} (hc : c ∈ [35, 38, 0]) (key : Bytes) :
    c ∉ api_key_part (percentEncode key) := by
  have hsep : c ∉ text "apikey=" ∧ unreserved c = false ∧ c ≠ 37 := by
    simp only [List.mem_cons, List.not_mem_nil, or_false] at hc
    rcases hc with rfl | rfl | rfl <;> decide
  obtain ⟨htext, hreserved, hpercent⟩ := hsep
  rw [api_key_part, List.mem_append, not_or]
  exact ⟨htext, not_mem_percentEncode hreserved hpercent key⟩

/-- A URL split at `#`, when its body and its tail are known. -/
theorem splitFirst_body_tail {body tail : Bytes} (hbody : 35 ∉ body)
    (htail : tail = [] ∨ ∃ rest, tail = 35 :: rest) :
    splitFirst 35 (body ++ tail) = (body, (splitFirst 35 tail).2) := by
  rcases htail with rfl | ⟨rest, rfl⟩
  · rw [List.append_nil, splitFirst_of_not_mem hbody]
    rfl
  · rw [splitFirst_append hbody, splitFirst, if_pos rfl]

/-- **The insertion changes nothing else**: same prefix, same fragment, and the
query has the part of the key behind all its own. -/
theorem urlParts_insert_api_key (url key : Bytes) :
    let before := urlParts url
    let after := urlParts (insert_api_key url (percentEncode key))
    after.before = before.before ∧ after.fragment = before.fragment
      ∧ after.parameters = before.parameters ++ [api_key_part (percentEncode key)] := by
  obtain ⟨body, tail, rfl, hbody, htail⟩ := url_body_tail url
  have hpart : ∀ c ∈ [35, 38, (0 : UInt8)], c ∉ api_key_part (percentEncode key) :=
    fun c hc => api_key_part_not_mem hc key
  -- the new body has no `#` either, so the tail is found where it was
  have hnew : 35 ∉ body ++ (if 63 ∈ body then 38 else 63) :: api_key_part (percentEncode key) := by
    rw [List.mem_append, List.mem_cons, not_or, not_or]
    refine ⟨hbody, ?_, hpart 35 (by decide)⟩
    split <;> decide
  rw [insert_api_key_eq hbody htail]
  simp only [urlParts, UrlParts.parameters, splitFirst_body_tail hbody htail,
    splitFirst_body_tail hnew htail]
  rcases splitFirst_spec 63 body with ⟨hnot, hsplit⟩ | ⟨pre, query, hpre, rfl, hsplit⟩
  · -- no query: the key opens one
    rw [if_neg hnot, hsplit, splitFirst_append hnot]
    exact ⟨rfl, trivial, List.splitOn_eq_singleton (hpart 38 (by decide))⟩
  · -- a query, which may hold more `?` and may be empty: the key is its last part
    have hmem : 63 ∈ pre ++ 63 :: query := List.mem_append_right _ (List.mem_cons_self ..)
    rw [if_pos hmem, hsplit, List.append_assoc, List.cons_append, splitFirst_append hpre]
    exact ⟨rfl, trivial, splitOn_append_last (hpart 38 (by decide)) query⟩

/-! ## The checks -/

theorem invalid_header_iff (value : Bytes) :
    invalid_header value = true ↔ ∃ c ∈ value, c = 13 ∨ c = 10 ∨ c = 0 := by
  rw [invalid_header, Option.isSome_iff_ne_none, ne_eq, find_first_of_eq_none]
  simp only [not_forall, not_not, List.mem_cons, List.not_mem_nil, or_false, exists_prop]

/-- Inserting the key keeps every byte of the URL. -/
theorem mem_insert_api_key {url : Bytes} {c : UInt8} (h : c ∈ url) (encoded : Bytes) :
    c ∈ insert_api_key url encoded := by
  rw [insert_api_key, StringView.insert, List.mem_append, List.mem_append]
  rw [← List.take_append_drop ((find url 35).getD url.length) url, List.mem_append] at h
  rcases h with h | h
  · exact Or.inl (Or.inl h)
  · exact Or.inr h

/-- The URL that is sent holds the joined URL's bytes. -/
theorem mem_keyed_url {config : HttpClientConfig} {curl : Curl} {path url : Bytes} {c : UInt8}
    (hurl : config.keyed_url curl path = .ok url) (h : c ∈ config.join_url path) : c ∈ url := by
  unfold HttpClientConfig.keyed_url at hurl
  dsimp only at hurl
  split at hurl
  · cases hurl
    exact h
  · split at hurl
    · cases hurl
    · cases hurl
      exact mem_insert_api_key h _

/-- A URL with a NUL, or a key or user agent with CR, LF or NUL, is never sent. -/
theorem request_rejects {config : HttpClientConfig} {curl : Curl} {path : Bytes}
    {options : List CurlOption} (h : config.request curl path = .ok options) :
    0 ∉ config.join_url path
      ∧ (¬ ∃ c ∈ config.user_agent, c = 13 ∨ c = 10 ∨ c = 0)
      ∧ ¬ ∃ c ∈ config.api_key, c = 13 ∨ c = 10 ∨ c = 0 := by
  obtain ⟨url, hurl, -, hnul, hagent, hkey⟩ := request_ok h
  refine ⟨fun hmem => hnul (mem_keyed_url hurl hmem), ?_, ?_⟩
  · rw [← invalid_header_iff, hagent]
    exact Bool.false_ne_true
  · rw [← invalid_header_iff, hkey]
    exact Bool.false_ne_true

/-! ## The URL that is sent -/

/-- What is assumed of libcurl: `curl_easy_escape` percent-encodes its argument
up to the first NUL. -/
def Curl.Escapes (curl : Curl) : Prop :=
  ∀ key escaped, curl.easy_escape key = some escaped → escaped = percentEncode (c_str key)

/-- The keyed URL, when the key has no NUL. -/
theorem keyed_url_eq {config : HttpClientConfig} {curl : Curl} {path url : Bytes}
    (hcurl : curl.Escapes) (hkey : config.api_key ≠ []) (hnul : 0 ∉ config.api_key)
    (hurl : config.keyed_url curl path = .ok url) :
    url = insert_api_key (config.join_url path) (percentEncode config.api_key) := by
  have hempty : config.api_key.isEmpty = false := by simpa using hkey
  have hc : c_str config.api_key = config.api_key := until_terminator_of_not_mem hnul
  unfold HttpClientConfig.keyed_url at hurl
  simp only [hempty, Bool.false_eq_true, if_false, hc] at hurl
  split at hurl
  · cases hurl
  · next escaped hescaped =>
    -- neither reading as a C string cuts anything off
    have hnul' : 0 ∉ percentEncode config.api_key := not_mem_percentEncode rfl (by decide) _
    have heq := hcurl _ _ hescaped
    rw [hc] at heq
    rw [heq, c_str, until_terminator_of_not_mem hnul'] at hurl
    cases hurl
    rfl

/-- Inserting an escaped key adds no NUL. -/
theorem nul_not_mem_insert {url : Bytes} (h : 0 ∉ url) (key : Bytes) :
    0 ∉ insert_api_key url (percentEncode key) := by
  obtain ⟨body, tail, rfl, hbody, htail⟩ := url_body_tail url
  rw [List.mem_append, not_or] at h
  rw [insert_api_key_eq hbody htail, List.mem_append, List.mem_append, List.mem_cons, not_or,
    not_or, not_or]
  refine ⟨⟨h.1, ?_, api_key_part_not_mem (by decide) key⟩, h.2⟩
  split <;> decide

/-- A libcurl that refuses nothing. -/
structure Curl.Works (curl : Curl) : Prop where
  handle : curl.handle = true
  escape : ∀ key, curl.easy_escape key ≠ none
  slist : curl.slist_append = true
  setopt : ∀ option, curl.easy_setopt option = .CURLE_OK

/-- A request for a URL that was made is sent when its parts are clean. -/
theorem request_of_keyed_url {curl : Curl} (hworks : curl.Works) {config : HttpClientConfig}
    {path url : Bytes} (hkeyed : config.keyed_url curl path = .ok url)
    (htimeout : 0 ≤ config.timeout) (hnul : 0 ∉ url)
    (hkey : ¬ ∃ c ∈ config.api_key, c = 13 ∨ c = 10 ∨ c = 0)
    (hagent : ¬ ∃ c ∈ config.user_agent, c = 13 ∨ c = 10 ∨ c = 0) :
    config.request curl path = .ok (config.options url) := by
  have hvalid : ¬ (find url 0 ≠ none ∨ invalid_header config.user_agent = true
      ∨ invalid_header config.api_key = true ∨ config.timeout < 0) := by
    rw [invalid_header_iff, invalid_header_iff, find_eq_none.mpr hnul]
    rintro (h | h | h | h)
    · exact h rfl
    · exact hagent h
    · exact hkey h
    · omega
  have hset : ((config.options url).all fun option => curl.easy_setopt option = .CURLE_OK)
      = true := List.all_eq_true.mpr fun option _ => decide_eq_true (hworks.setopt option)
  unfold HttpClientConfig.request
  rw [hkeyed]
  simp only [if_neg hvalid, hworks.slist, not_true_eq_false, if_false, if_pos hset]

/-- A clean request is sent. -/
theorem request_sends {curl : Curl} (hcurl : curl.Escapes) (hworks : curl.Works)
    {config : HttpClientConfig} {path : Bytes} (htimeout : 0 ≤ config.timeout)
    (hurl : 0 ∉ config.join_url path) (hkey : ¬ ∃ c ∈ config.api_key, c = 13 ∨ c = 10 ∨ c = 0)
    (hagent : ¬ ∃ c ∈ config.user_agent, c = 13 ∨ c = 10 ∨ c = 0) :
    ∃ options, config.request curl path = .ok options := by
  -- the URL is made, with or without a key, and has no NUL
  obtain ⟨url, hkeyed, hnul⟩ : ∃ url, config.keyed_url curl path = .ok url ∧ 0 ∉ url := by
    unfold HttpClientConfig.keyed_url
    by_cases hempty : config.api_key.isEmpty = true
    · simp only [hempty, if_true]
      exact ⟨_, rfl, hurl⟩
    · simp only [hempty, Bool.false_eq_true, if_false]
      cases hescaped : curl.easy_escape (c_str config.api_key) with
      | none => exact absurd hescaped (hworks.escape _)
      | some escaped =>
        have hclean : 0 ∉ escaped := by
          rw [hcurl _ _ hescaped]
          exact not_mem_percentEncode rfl (by decide) _
        refine ⟨_, rfl, ?_⟩
        rw [c_str, until_terminator_of_not_mem hclean, hcurl _ _ hescaped]
        exact nul_not_mem_insert hurl _
  exact ⟨_, request_of_keyed_url hworks hkeyed htimeout hnul hkey hagent⟩

/-- **Key injection changes nothing else in the URL.** The URL that is sent has
the prefix and the fragment of the joined URL, and its query has one part more,
`apikey=` and the escaped key. With a NUL in the URL, or CR, LF or NUL in the
key or the user agent, `get` returns an error and sends nothing; without them
a libcurl that refuses nothing is sent the request. What is sent is what `get`
hands to `curl_easy_perform`, whose transfer it returns. -/
theorem api_key_injection (curl : Curl) (hcurl : curl.Escapes) (client : HttpClient)
    (config : HttpClientConfig) (himpl : client.impl_ = some config) (path : Bytes) :
    (∀ options, client.sent curl path = some (config, options) → config.api_key ≠ [] →
      ∃ url, options.head? = some (.URL url)
        ∧ (urlParts url).before = (urlParts (config.join_url path)).before
        ∧ (urlParts url).fragment = (urlParts (config.join_url path)).fragment
        ∧ (urlParts url).parameters = (urlParts (config.join_url path)).parameters
            ++ [text "apikey=" ++ percentEncode config.api_key]
        ∧ percentDecode (percentEncode config.api_key) = some config.api_key)
    ∧ ((0 ∈ config.join_url path
          ∨ (∃ c ∈ config.api_key, c = 13 ∨ c = 10 ∨ c = 0)
          ∨ ∃ c ∈ config.user_agent, c = 13 ∨ c = 10 ∨ c = 0) →
        client.sent curl path = none ∧ ∃ error, client.get curl path = .error error)
    ∧ (curl.Works → 0 ≤ config.timeout → 0 ∉ config.join_url path →
        (¬ ∃ c ∈ config.api_key, c = 13 ∨ c = 10 ∨ c = 0) →
        (¬ ∃ c ∈ config.user_agent, c = 13 ∨ c = 10 ∨ c = 0) →
        ∃ options, client.sent curl path = some (config, options))
    ∧ ∀ options, client.sent curl path = some (config, options) →
        client.get curl path = finish curl (curl.easy_perform options)
          (deliver config.sink (curl.easy_perform options).callbacks) := by
  refine ⟨fun options hsome hne => ?_, fun hbad => ?_, fun hworks htimeout hurl hkey hagent => ?_,
    fun options hsent => (sent_spec hsent).2.2⟩
  · obtain ⟨-, hrequest, -⟩ := sent_spec hsome
    obtain ⟨-, -, hkey⟩ := request_rejects hrequest
    obtain ⟨url, hurl, rfl, hnul, -, -⟩ := request_ok hrequest
    have hkey_nul : 0 ∉ config.api_key := fun hmem => hkey ⟨0, hmem, Or.inr (Or.inr rfl)⟩
    have heq := keyed_url_eq hcurl hne hkey_nul hurl
    obtain ⟨hbefore, hfragment, hparameters⟩ :=
      urlParts_insert_api_key (config.join_url path) config.api_key
    rw [← heq] at hbefore hfragment hparameters
    -- libcurl reads the URL as a C string, which loses nothing of it
    refine ⟨url, ?_, hbefore, hfragment, hparameters, percentDecode_percentEncode _⟩
    rw [HttpClientConfig.options, c_str, until_terminator_of_not_mem hnul]
    rfl
  · rcases get_cases client curl path with ⟨hnone, herror⟩
        | ⟨config', options', himpl', -, hrequest, -, -⟩
    · exact ⟨hnone, herror⟩
    · rw [himpl, Option.some.injEq] at himpl'
      subst himpl'
      -- a request that was sent had passed all three checks
      obtain ⟨hurl, hagent, hkey⟩ := request_rejects hrequest
      rcases hbad with hbad | hbad | hbad
      · exact absurd hbad hurl
      · exact absurd hbad hkey
      · exact absurd hbad hagent
  · obtain ⟨options, hrequest⟩ := request_sends hcurl hworks htimeout hurl hkey hagent
    exact ⟨options, sent_of_request himpl hworks.handle hrequest⟩

/-- A key with separators, in a URL with a query and a fragment. -/
theorem api_key_injection_before_fragment :
    (urlParts (text "http://h/weather?x=1&apikey=a%26b%3D1#top")).parameters
        = (urlParts (text "http://h/weather?x=1#top")).parameters ++ [text "apikey=a%26b%3D1"] := by
  let config : HttpClientConfig := { base_url := text "http://h", api_key := text "a&b=1" }
  have hescapes : (Curl.recorded []).Escapes := fun key escaped h => (Option.some.inj h).symm
  obtain ⟨url, hhead, -, -, hparameters, -⟩ :=
    (api_key_injection (Curl.recorded []) hescapes ⟨some config⟩ config rfl
      (text "/weather?x=1#top")).1 _ rfl (by decide)
  have hurl : text "http://h/weather?x=1&apikey=a%26b%3D1#top" = url :=
    CurlOption.URL.inj (Option.some.inj hhead)
  rw [hurl]
  exact hparameters

end OpenMeteo
