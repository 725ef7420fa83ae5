/-
What a client puts on the wire.

A method joins the base URL of its endpoint with the query string, `do_get` hands
the result to every attempt, and `HttpClient::get` joins, keys and checks it once
more. `wire_url_eq` says what comes out of all that: the base URL, and behind it one
query of the pairs that are set and the key as the last of them. No base URL has a
`?` or a `#`, and no encoded text has one, so the URL splits where it was joined.
Reading it back is `decode_url`, and what the two URLs of two requests have in
common is what the requests have in common.
-/
import OpenMeteo.AbsoluteUrl
import OpenMeteo.ClientResults
import Mathlib.Data.List.ProdSigma

set_option autoImplicit false

namespace OpenMeteo

open StringView UrlText

variable {σ : Type}

/-! ## Base URLs -/

/-- The base URL of a request, with or without the customer prefix. -/
def Request.host (customer : Bool) (r : Request) : Bytes :=
  OpenMeteoClient.resolve_url ⟨some { use_customer_endpoints := customer }⟩ r.base_url

/-- One request of each endpoint. -/
def endpoints : List Request :=
  [.forecast {}, .historical {}, .historical_forecast {}, .previous_runs {}, .ensemble {},
    .marine {}, .air_quality {}, .climate {}, .seasonal {}, .flood {}, .elevation {},
    .geocoding {}]

theorem Request.blank_mem (r : Request) : r.blank ∈ endpoints := by
  cases r <;> simp [Request.blank, endpoints]

theorem Request.host_blank (customer : Bool) (r : Request) :
    r.host customer = r.blank.host customer := by
  cases r <;> rfl

/-- Every base URL begins with `https://`, and has no query, no fragment and no NUL. -/
theorem Request.host_clean (customer : Bool) (r : Request) :
    text "https://" <+: r.host customer ∧ ∀ c ∈ [63, 35, 0], c ∉ r.host customer := by
  rw [Request.host_blank]
  have hall : ∀ customer ∈ [true, false], ∀ r ∈ endpoints,
      text "https://" <+: r.host customer
        ∧ 63 ∉ r.host customer ∧ 35 ∉ r.host customer ∧ 0 ∉ r.host customer := by
    decide +kernel
  simpa using hall customer (by cases customer <;> simp) r.blank r.blank_mem

/-- The twenty-four base URLs differ. -/
theorem hosts_nodup :
    ((endpoints ×ˢ [true, false]).map fun e => e.1.host e.2).Nodup := by
  decide +kernel

theorem Request.host_inj {r r' : Request} {customer customer' : Bool}
    (h : r.host customer = r'.host customer') : r.blank = r'.blank ∧ customer = customer' := by
  rw [Request.host_blank, Request.host_blank customer'] at h
  have hmem : ∀ (r : Request) (customer : Bool),
      (r.blank, customer) ∈ endpoints ×ˢ [true, false] := fun r customer =>
    List.mem_product.mpr ⟨r.blank_mem, by cases customer <;> simp⟩
  exact Prod.mk.inj (List.inj_on_of_nodup_map hosts_nodup (hmem r customer)
    (hmem r' customer') h)

/-! ## The URL of a request -/

namespace OpenMeteoClient.Config

/-- The URL a request is sent to. -/
def wire_url (config : OpenMeteoClient.Config) (r : Request) : Bytes :=
  let full_url := OpenMeteoClient.resolve_url ⟨some config⟩ r.base_url ++ r.build_query_string
  if config.http.api_key.isEmpty then full_url
  else insert_api_key full_url (percentEncode config.http.api_key)

/-- What the query of that URL holds. -/
def wire_pairs (config : OpenMeteoClient.Config) (r : Request) : List (Bytes × Value) :=
  r.fields.filterMap Field.pair ++
    if config.http.api_key.isEmpty then [] else [(text "apikey", .text config.http.api_key)]

end OpenMeteoClient.Config

/-- No endpoint has all its fields unset. -/
theorem Request.pairs_ne_nil (r : Request) : r.fields.filterMap Field.pair ≠ [] := by
  cases r <;> exact List.cons_ne_nil _ _

theorem build_query_string_render (r : Request) :
    r.build_query_string = render (pair_calls (r.fields.filterMap Field.pair)) := by
  have hall : (pair_calls (r.fields.filterMap Field.pair)).filter Call.contributes
      = pair_calls (r.fields.filterMap Field.pair) := by
    refine List.filter_eq_self.mpr fun c hc => ?_
    obtain ⟨p, hp, rfl⟩ := List.mem_map.mp hc
    obtain ⟨f, -, hf⟩ := List.mem_filterMap.mp hp
    obtain ⟨v, hv, rfl⟩ := Option.map_eq_some_iff.mp hf
    exact (Field.value_sound hv).2
  rw [build_query_string_eq, foldl_append_eq]
  exact (build_eq _).trans (congrArg render hall)

/-- A query string opens with its `?`, and has neither `#` nor NUL behind it. -/
theorem build_query_string_shape (r : Request) :
    ∃ query, r.build_query_string = 63 :: query ∧ 35 ∉ query ∧ 0 ∉ query := by
  have hne : pair_calls (r.fields.filterMap Field.pair) ≠ [] := by
    simpa [pair_calls] using r.pairs_ne_nil
  rw [build_query_string_render]
  rcases render_wellCoded (pair_calls (r.fields.filterMap Field.pair)) with hnil
      | ⟨query, heq, hcoded⟩
  · cases hcalls : pair_calls (r.fields.filterMap Field.pair) with
    | nil => exact absurd hcalls hne
    | cons first rest =>
      rw [hcalls, render] at hnil
      cases hnil
      exact fun h => (by cases h)
  · exact ⟨query, heq, hcoded.not_mem (by decide) (by decide) (by decide),
      hcoded.not_mem (by decide) (by decide) (by decide)⟩

/-- One part more in a query that has parts already. -/
theorem render_concat {calls : List Call} (hcalls : calls ≠ []) (call : Call) :
    render (calls ++ [call]) = render calls ++ 38 :: call.part := by
  cases calls with
  | nil => exact absurd rfl hcalls
  | cons first rest =>
    have hmap : (first :: rest).map Call.part ≠ [] := by simp
    rw [List.cons_append, render, render, ← List.cons_append, List.map_append, List.map_singleton,
      intercalate_concat 38 hmap, List.cons_append]
    · simp
    · simp

/-- **The URL of a request**: its base URL, and one query of its pairs. -/
theorem wire_url_eq (config : OpenMeteoClient.Config) (r : Request) :
    config.wire_url r
      = r.host config.use_customer_endpoints ++ render (pair_calls (config.wire_pairs r)) := by
  have hurl : OpenMeteoClient.resolve_url ⟨some config⟩ r.base_url
      = r.host config.use_customer_endpoints := rfl
  have hcalls : pair_calls (r.fields.filterMap Field.pair) ≠ [] := by
    simpa [pair_calls] using r.pairs_ne_nil
  unfold OpenMeteoClient.Config.wire_url OpenMeteoClient.Config.wire_pairs
  dsimp only
  rw [hurl]
  by_cases hkey : config.http.api_key.isEmpty = true
  · rw [if_pos hkey, if_pos hkey, List.append_nil, build_query_string_render]
  · rw [if_neg hkey, if_neg hkey]
    obtain ⟨query, hquery, hhash, -⟩ := build_query_string_shape r
    have hhost := (r.host_clean config.use_customer_endpoints).2 35 (by decide)
    have hbody : 35 ∉ r.host config.use_customer_endpoints ++ r.build_query_string := by
      rw [hquery, List.mem_append, List.mem_cons]
      rintro (hmem | hmem | hmem)
      · exact hhost hmem
      · exact absurd hmem (by decide)
      · exact hhash hmem
    have hmark : 63 ∈ r.host config.use_customer_endpoints ++ r.build_query_string := by
      rw [hquery]
      exact List.mem_append_right _ (List.mem_cons_self ..)
    -- the part of the key is that of one call more
    have hpart : api_key_part (percentEncode config.http.api_key)
        = ((Value.text config.http.api_key).call (text "apikey")).part := rfl
    have hinsert := insert_api_key_eq hbody (Or.inl rfl) (percentEncode config.http.api_key)
    rw [List.append_nil, List.append_nil, if_pos hmark] at hinsert
    rw [hinsert, hpart, pair_calls, List.map_append, List.map_singleton, ← pair_calls,
      render_concat hcalls, ← build_query_string_render, List.append_assoc]

/-! ## Reading a URL back -/

/-- What is before the query, and the pairs of the query; no URL with a fragment. -/
def decode_url (url : Bytes) : Option (Bytes × List (Bytes × Value)) :=
  match (urlParts url).fragment with
  | some _ => none
  | none =>
    (decode_query (((urlParts url).query.map (63 :: ·)).getD [])).map fun pairs =>
      ((urlParts url).before, pairs)

/-- A query with one parameter more. -/
theorem decode_query_concat {query : Bytes} {pairs : List (Bytes × Value)}
    (h : decode_query (63 :: query) = some pairs) {key : Bytes} (hkind : value_kind key = .text)
    (value : Bytes) :
    decode_query (63 :: query ++ 38 :: (Call.param key value).part)
      = some (pairs ++ [(key, .text value)]) := by
  obtain ⟨parts, hparts, hpairs⟩ := Option.bind_eq_some_iff.mp h
  have hsplit : split_query (63 :: query ++ 38 :: (Call.param key value).part)
      = some (parts ++ [(key, percentEncode value)]) := by
    rw [split_query, if_pos rfl] at hparts
    rw [List.cons_append, split_query, if_pos rfl,
      splitOn_append_last (ampersand_not_mem_part _), List.mapM_append, hparts]
    simp only [List.mapM_cons, List.mapM_nil, split_part_part]
    rfl
  rw [decode_query, hsplit, Option.bind_some, List.mapM_append, hpairs]
  simp only [List.mapM_cons, List.mapM_nil, hkind, read_value, percentDecode_percentEncode]
  rfl

/-- The query of the URL, with the key or without it. -/
theorem wire_query (config : OpenMeteoClient.Config) (r : Request) :
    ∃ query, config.wire_url r = r.host config.use_customer_endpoints ++ 63 :: query
      ∧ 35 ∉ query ∧ 0 ∉ query ∧ decode_query (63 :: query) = some (config.wire_pairs r) := by
  obtain ⟨query, hquery, hhash, hnul⟩ := build_query_string_shape r
  have hdecode := decode_build_query_string r
  have hcalls : pair_calls (r.fields.filterMap Field.pair) ≠ [] := by
    simpa [pair_calls] using r.pairs_ne_nil
  rw [wire_url_eq]
  unfold OpenMeteoClient.Config.wire_pairs
  by_cases hkey : config.http.api_key.isEmpty = true
  · rw [if_pos hkey, List.append_nil, ← build_query_string_render, hquery]
    rw [hquery] at hdecode
    exact ⟨query, rfl, hhash, hnul, hdecode⟩
  · rw [if_neg hkey, pair_calls, List.map_append, List.map_singleton, ← pair_calls,
      render_concat hcalls, ← build_query_string_render, hquery]
    rw [hquery] at hdecode
    have hpart : ∀ c ∈ [35, 38, (0 : UInt8)],
        c ∉ (Call.param (text "apikey") config.http.api_key).part :=
      fun c hc => api_key_part_not_mem hc config.http.api_key
    refine ⟨query ++ 38 :: (Call.param (text "apikey") config.http.api_key).part, rfl, ?_, ?_,
      decode_query_concat hdecode (by decide) _⟩
    · rw [List.mem_append, List.mem_cons]
      rintro (hmem | hmem | hmem)
      · exact hhash hmem
      · exact absurd hmem (by decide)
      · exact hpart 35 (by decide) hmem
    · rw [List.mem_append, List.mem_cons]
      rintro (hmem | hmem | hmem)
      · exact hnul hmem
      · exact absurd hmem (by decide)
      · exact hpart 0 (by decide) hmem

/-- **The URL of a request reads back** as its base URL and exactly its pairs. -/
theorem decode_wire_url (config : OpenMeteoClient.Config) (r : Request) :
    decode_url (config.wire_url r)
      = some (r.host config.use_customer_endpoints, config.wire_pairs r) := by
  obtain ⟨query, heq, hhash, -, hdecode⟩ := wire_query config r
  have hhost := (r.host_clean config.use_customer_endpoints).2
  have hnohash : 35 ∉ r.host config.use_customer_endpoints ++ 63 :: query := by
    rw [List.mem_append, List.mem_cons]
    rintro (hmem | hmem | hmem)
    · exact hhost 35 (by decide) hmem
    · exact absurd hmem (by decide)
    · exact hhash hmem
  have hparts : urlParts (config.wire_url r)
      = ⟨r.host config.use_customer_endpoints, some query, none⟩ := by
    rw [heq]
    simp only [urlParts, splitFirst_of_not_mem hnohash,
      splitFirst_append (hhost 63 (by decide))]
  rw [decode_url, hparts]
  simp only [Option.map_some, Option.getD_some, hdecode]

theorem wire_url_no_nul (config : OpenMeteoClient.Config) (r : Request) :
    0 ∉ config.wire_url r := by
  obtain ⟨query, heq, -, hnul, -⟩ := wire_query config r
  rw [heq, List.mem_append, List.mem_cons]
  rintro (hmem | hmem | hmem)
  · exact (r.host_clean config.use_customer_endpoints).2 0 (by decide) hmem
  · exact absurd hmem (by decide)
  · exact hnul hmem

theorem fields_names_blank (r : Request) :
    r.fields.map Field.name = r.blank.fields.map Field.name := by
  cases r <;> rfl

/-- No field is called `apikey`. -/
theorem apikey_not_sent (r : Request) :
    text "apikey" ∉ (r.fields.filterMap Field.pair).map Prod.fst := by
  have hall : ∀ r ∈ endpoints, text "apikey" ∉ r.fields.map Field.name := by decide
  have hnames := hall r.blank r.blank_mem
  rw [← fields_names_blank] at hnames
  exact fun hmem => hnames ((pairs_keys_sublist r.fields).subset hmem)

/-- The keys of the query differ. -/
theorem wire_pairs_nodup (config : OpenMeteoClient.Config) (r : Request) :
    ((config.wire_pairs r).map Prod.fst).Nodup := by
  have hnodup := (fields_names r).1.sublist (pairs_keys_sublist r.fields)
  unfold OpenMeteoClient.Config.wire_pairs
  rw [List.map_append]
  split
  · rw [List.map_nil, List.append_nil]
    exact hnodup
  · rw [List.map_singleton, ← List.concat_eq_append]
    exact List.Nodup.concat (apikey_not_sent r) hnodup

/-! ## What `get` sends -/

/-- What a method hands to `do_get`. -/
def OpenMeteoClient.Config.full_url (config : OpenMeteoClient.Config) (r : Request) : Bytes :=
  OpenMeteoClient.resolve_url ⟨some config⟩ r.base_url ++ r.build_query_string

/-- The base URL of the transport is never put in front. -/
theorem join_full_url (config : OpenMeteoClient.Config) (r : Request) :
    config.http.join_url (config.full_url r) = config.full_url r := by
  obtain ⟨⟨rest, hrest⟩, -⟩ := r.host_clean config.use_customer_endpoints
  have hurl : config.full_url r
      = r.host config.use_customer_endpoints ++ r.build_query_string := rfl
  have hchars : ([116, 116, 112, 115] : Bytes).all (fun c => SchemeChar c) = true := by decide
  have habsolute : AbsoluteUrl (config.full_url r) := by
    refine ⟨⟨104, [116, 116, 112, 115], by decide, fun c hc => ?_⟩,
      rest ++ r.build_query_string, ?_⟩
    · exact of_decide_eq_true (List.all_eq_true.mp hchars c hc)
    · rw [hurl, ← hrest, List.append_assoc]
      rfl
  exact if_pos ((is_absolute_url_iff _).mpr habsolute)

theorem full_url_no_nul (config : OpenMeteoClient.Config) (r : Request) :
    0 ∉ config.full_url r := by
  obtain ⟨query, hquery, -, hnul⟩ := build_query_string_shape r
  have hurl : config.full_url r
      = r.host config.use_customer_endpoints ++ r.build_query_string := rfl
  rw [hurl, hquery, List.mem_append, List.mem_cons]
  rintro (hmem | hmem | hmem)
  · exact (r.host_clean config.use_customer_endpoints).2 0 (by decide) hmem
  · exact absurd hmem (by decide)
  · exact hnul hmem

/-- A request that is sent, is sent to the URL of the request. -/
theorem sent_wire_url {config : OpenMeteoClient.Config} {curl : Curl} (hcurl : curl.Escapes)
    {r : Request} {sent : HttpClientConfig × List CurlOption}
    (hsent : HttpClient.sent ⟨some config.http⟩ curl (config.full_url r) = some sent) :
    sent = (config.http, config.http.options (config.wire_url r)) := by
  obtain ⟨http, options⟩ := sent
  obtain ⟨himpl, hrequest, -⟩ := sent_spec hsent
  rw [Option.some.injEq] at himpl
  subst himpl
  obtain ⟨url, hurl, rfl, -, -, -⟩ := request_ok hrequest
  obtain ⟨-, -, hclean⟩ := request_rejects hrequest
  have hjoin := join_full_url config r
  have hwire : url = config.wire_url r := by
    by_cases hkey : config.http.api_key = []
    · have hempty : config.http.api_key.isEmpty = true := List.isEmpty_iff.mpr hkey
      rw [keyed_url_without_key curl _ hkey, hjoin] at hurl
      cases hurl
      exact (if_pos hempty).symm
    · have hempty : ¬ config.http.api_key.isEmpty = true := mt List.isEmpty_iff.mp hkey
      have hnul : 0 ∉ config.http.api_key := fun hmem => hclean ⟨0, hmem, Or.inr (Or.inr rfl)⟩
      rw [keyed_url_eq hcurl hkey hnul hurl, hjoin]
      exact (if_neg hempty).symm
  rw [hwire]

/-- It is sent when libcurl refuses nothing, and the key and the user agent are clean. -/
theorem sends_wire_url {config : OpenMeteoClient.Config} {curl : Curl} (hcurl : curl.Escapes)
    (hworks : curl.Works) (htimeout : 0 ≤ config.http.timeout)
    (hkey : ¬ ∃ c ∈ config.http.api_key, c = 13 ∨ c = 10 ∨ c = 0)
    (hagent : ¬ ∃ c ∈ config.http.user_agent, c = 13 ∨ c = 10 ∨ c = 0) (r : Request) :
    HttpClient.sent ⟨some config.http⟩ curl (config.full_url r)
      = some (config.http, config.http.options (config.wire_url r)) := by
  have hnul : 0 ∉ config.http.join_url (config.full_url r) := by
    rw [join_full_url]
    exact full_url_no_nul config r
  obtain ⟨options, hrequest⟩ := request_sends hcurl hworks htimeout hnul hkey hagent
  have hsent : HttpClient.sent ⟨some config.http⟩ curl (config.full_url r)
      = some (config.http, options) := sent_of_request rfl hworks.handle hrequest
  rw [hsent, sent_wire_url hcurl hsent]

/-! ## Every attempt -/

/-- The services of a client on its own transport, which also record the requests that
are sent, each as the options of its handle. What is recorded and what is returned
come from one run of `perform`. -/
def OpenMeteoClient.recording (client : OpenMeteoClient) (acquire : Proc σ Bool)
    (curl : Proc σ Curl) (sleep_for : ℤ → Proc σ Unit) (jitter : Proc σ ℚ) :
    Services (σ × List (List CurlOption)) where
  acquire := fun w => ((acquire w.1).1, ((acquire w.1).2, w.2))
  http_get := fun full_url w =>
    match curl w.1 with
    | (some curl, w') =>
      let (sent, result) := client.http.perform curl full_url
      (some result, (w', w.2 ++ sent.toList.map Prod.snd))
    | (none, w') => (none, (w', w.2))
  sleep_for := fun delay w => ((sleep_for delay w.1).1, ((sleep_for delay w.1).2, w.2))
  jitter := fun w => ((jitter w.1).1, ((jitter w.1).2, w.2))

section Wire

variable (config : OpenMeteoClient.Config) (acquire : Proc σ Bool) (curl : Proc σ Curl)
  (sleep_for : ℤ → Proc σ Unit) (jitter : Proc σ ℚ)

/-! ### Recording changes nothing -/

theorem recording_mirrors :
    (OpenMeteoClient.recording ⟨some config⟩ acquire curl sleep_for jitter).Mirrors
      (OpenMeteoClient.services ⟨some config⟩ acquire curl sleep_for jitter) where
  acquire := fun _ => ⟨rfl, rfl⟩
  http_get := by
    intro full_url w
    simp only [OpenMeteoClient.recording, OpenMeteoClient.services]
    rcases hcurl : curl w.1 with ⟨_ | c, w'⟩
    · rw [Proc.bind_running hcurl]
      exact ⟨rfl, rfl⟩
    · rw [Proc.bind_run hcurl]
      exact ⟨rfl, rfl⟩
  sleep_for := fun _ _ => ⟨rfl, rfl⟩
  jitter := fun _ => ⟨rfl, rfl⟩

/-! ### What is recorded -/

/-- Only the transport sends. -/
theorem recording_acquire (w : σ × List (List CurlOption)) :
    (OpenMeteoClient.recording ⟨some config⟩ acquire curl sleep_for jitter).acquire.Ensures w
      fun _ w' => w'.2 = w.2 := rfl

theorem recording_sleep (delay : ℤ) (w : σ × List (List CurlOption)) :
    ((OpenMeteoClient.recording ⟨some config⟩ acquire curl sleep_for jitter).sleep_for
      delay).Ensures w fun _ w' => w'.2 = w.2 := rfl

theorem recording_jitter (w : σ × List (List CurlOption)) :
    (OpenMeteoClient.recording ⟨some config⟩ acquire curl sleep_for jitter).jitter.Ensures w
      fun _ w' => w'.2 = w.2 := rfl

/-- The transport sends the request or nothing. -/
theorem recording_http_get (hcurl : ∀ w c w', curl w = (some c, w') → c.Escapes) (r : Request)
    (w : σ × List (List CurlOption)) :
    ((OpenMeteoClient.recording ⟨some config⟩ acquire curl sleep_for jitter).http_get
      (config.full_url r)).Ensures w fun _ w' => ∃ n ≤ 1,
        w'.2 = w.2 ++ List.replicate n (config.http.options (config.wire_url r)) := by
  unfold Proc.Ensures OpenMeteoClient.recording
  dsimp only
  rcases hrun : curl w.1 with ⟨_ | c, w'⟩
  · exact ⟨0, Nat.zero_le 1, (List.append_nil _).symm⟩
  · change ∃ n ≤ 1, w.2 ++ (HttpClient.sent ⟨some config.http⟩ c (config.full_url r)).toList.map
      Prod.snd = w.2 ++ List.replicate n (config.http.options (config.wire_url r))
    cases hsent : HttpClient.sent ⟨some config.http⟩ c (config.full_url r) with
    | none => exact ⟨0, Nat.zero_le 1, rfl⟩
    | some sent =>
      rw [sent_wire_url (hcurl _ _ _ hrun) hsent]
      exact ⟨1, le_refl 1, rfl⟩

/-- One attempt sends at most the request. -/
theorem recording_attempt (hcurl : ∀ w c w', curl w = (some c, w') → c.Escapes) (r : Request)
    (w : σ × List (List CurlOption)) :
    ((OpenMeteoClient.recording ⟨some config⟩ acquire curl sleep_for jitter).attempt
      (config.full_url r)).Ensures w fun _ w' => ∃ n ≤ 1,
        w'.2 = w.2 ++ List.replicate n (config.http.options (config.wire_url r)) := by
  unfold Services.attempt
  refine Proc.Ensures.bind (recording_acquire config acquire curl sleep_for jitter w)
    (fun granted w₁ hw₁ => ?_) fun w₁ hw₁ => ⟨0, Nat.zero_le 1, hw₁.trans (List.append_nil _).symm⟩
  cases granted with
  | false => exact ⟨0, Nat.zero_le 1, hw₁.trans (List.append_nil _).symm⟩
  | true =>
    rw [← hw₁]
    exact recording_http_get config acquire curl sleep_for jitter hcurl r w₁

/-- All attempts send the same request, by induction on the attempts that remain. -/
theorem recording_retry (hcurl : ∀ w c w', curl w = (some c, w') → c.Escapes) (r : Request)
    (remaining : ℕ) :
    ∀ (attempt : ℕ) (w : σ × List (List CurlOption)),
      (bounded_retry ((OpenMeteoClient.recording ⟨some config⟩ acquire curl sleep_for
        jitter).retry_port (config.full_url r)) config.retry remaining attempt).Ensures w
          fun _ w' => ∃ n ≤ remaining + 1,
            w'.2 = w.2 ++ List.replicate n (config.http.options (config.wire_url r)) := by
  induction remaining with
  | zero => exact fun attempt w => recording_attempt config acquire curl sleep_for jitter hcurl r w
  | succ remaining ih =>
    intro attempt w
    have hattempt := recording_attempt config acquire curl sleep_for jitter hcurl r w
    refine Proc.Ensures.bind hattempt ?_ ?_
    · rintro result w₁ ⟨n, hn, hlog⟩
      split
      · -- neither the draw nor the sleep sends anything
        refine Proc.Ensures.bind (recording_jitter config acquire curl sleep_for jitter w₁)
          (fun draw w₂ hw₂ => ?_) fun w₂ hw₂ => ⟨n, by omega, hw₂.trans hlog⟩
        refine Proc.Ensures.bind (recording_sleep config acquire curl sleep_for jitter _ w₂)
          (fun _ w₃ hw₃ => ?_) fun w₃ hw₃ => ⟨n, by omega, hw₃.trans (hw₂.trans hlog)⟩
        refine (ih (attempt + 1) w₃).mono ?_
        rintro _ w₄ ⟨m, hm, hw₄⟩
        refine ⟨n + m, by omega, ?_⟩
        rw [hw₄, hw₃, hw₂, hlog, List.append_assoc, List.replicate_append_replicate]
      · exact ⟨n, by omega, hlog⟩
    · rintro w₁ ⟨n, hn, hlog⟩
      exact ⟨n, by omega, hlog⟩

/-- The first attempt sends the request, when the limiter grants it. -/
theorem recording_attempt_sends {w : σ} {r : Request} (hgranted : (acquire w).1 = some true)
    (hsends : ∀ w, ∃ c w', curl w = (some c, w')
      ∧ HttpClient.sent ⟨some config.http⟩ c (config.full_url r)
        = some (config.http, config.http.options (config.wire_url r))) :
    ((OpenMeteoClient.recording ⟨some config⟩ acquire curl sleep_for jitter).attempt
      (config.full_url r)).Ensures (w, []) fun _ w' => w'.2 ≠ [] := by
  have hacquire : (OpenMeteoClient.recording ⟨some config⟩ acquire curl sleep_for jitter).acquire
      (w, []) = (some true, ((acquire w).2, [])) := by
    simp only [OpenMeteoClient.recording, hgranted]
  obtain ⟨c, w', hrun, hsent⟩ := hsends (acquire w).2
  unfold Proc.Ensures Services.attempt
  rw [Proc.bind_run hacquire]
  change ((OpenMeteoClient.recording ⟨some config⟩ acquire curl sleep_for jitter).http_get
    (config.full_url r) ((acquire w).2, [])).2.2 ≠ []
  unfold HttpClient.sent at hsent
  simp only [OpenMeteoClient.recording, OpenMeteoClient.http, Option.map_some, hrun, hsent]
  exact List.cons_ne_nil _ _

/-- What has been sent stays in the record. -/
theorem recording_retry_sends (hcurl : ∀ w c w', curl w = (some c, w') → c.Escapes) {w : σ}
    {r : Request} (hgranted : (acquire w).1 = some true)
    (hsends : ∀ w, ∃ c w', curl w = (some c, w')
      ∧ HttpClient.sent ⟨some config.http⟩ c (config.full_url r)
        = some (config.http, config.http.options (config.wire_url r)))
    (remaining attempt : ℕ) :
    (bounded_retry ((OpenMeteoClient.recording ⟨some config⟩ acquire curl sleep_for
      jitter).retry_port (config.full_url r)) config.retry remaining attempt).Ensures (w, [])
        fun _ w' => w'.2 ≠ [] := by
  have hfirst := recording_attempt_sends config acquire curl sleep_for jitter hgranted hsends
  cases remaining with
  | zero => exact hfirst
  | succ remaining =>
    refine Proc.Ensures.bind hfirst (fun result w₁ hw₁ => ?_) fun w₁ hw₁ => hw₁
    split
    · refine Proc.Ensures.bind (recording_jitter config acquire curl sleep_for jitter w₁)
        (fun draw w₂ hw₂ => ?_) fun w₂ hw₂ => by rw [hw₂]; exact hw₁
      refine Proc.Ensures.bind (recording_sleep config acquire curl sleep_for jitter _ w₂)
        (fun _ w₃ hw₃ => ?_) fun w₃ hw₃ => by rw [hw₃, hw₂]; exact hw₁
      refine (recording_retry config acquire curl sleep_for jitter hcurl r remaining
        (attempt + 1) w₃).mono ?_
      rintro _ w₄ ⟨m, -, hw₄⟩
      rw [hw₄, hw₃, hw₂]
      exact List.append_ne_nil_of_left_ne_nil hw₁ _
    · exact hw₁

end Wire

/-- **What a client puts on the wire.** In every run of a method, whatever the limiter
decides, however libcurl answers each transfer and whatever is retried, the requests
sent are at most the attempts allowed and all the same one. Its URL reads back as the
base URL of the endpoint, with the customer prefix exactly when it is configured, and
as the fields that are set and the key, each under a key of its own. With attempts
allowed, a grant, a libcurl that refuses nothing, a timeout that is not negative and
clean headers, it is sent. -/
theorem requests_on_the_wire (config : OpenMeteoClient.Config) (r : Request)
    (acquire : Proc σ Bool) (curl : Proc σ Curl) (sleep_for : ℤ → Proc σ Unit) (jitter : Proc σ ℚ)
    (hcurl : ∀ w c w', curl w = (some c, w') → c.Escapes) (glaze : Glaze) (w : σ) :
    let run := r.get ⟨some config⟩
      (OpenMeteoClient.recording ⟨some config⟩ acquire curl sleep_for jitter) glaze (w, [])
    run.1 = (r.get ⟨some config⟩
        (OpenMeteoClient.services ⟨some config⟩ acquire curl sleep_for jitter) glaze w).1
      ∧ (∃ n ≤ config.retry.max_attempts.toNat,
          run.2.2 = List.replicate n (config.http.options (config.wire_url r)))
      ∧ (config.http.options (config.wire_url r)).head? = some (.URL (config.wire_url r))
      ∧ decode_url (config.wire_url r)
          = some (r.host config.use_customer_endpoints, config.wire_pairs r)
      ∧ ((config.wire_pairs r).map Prod.fst).Nodup
      ∧ (0 < config.retry.max_attempts.toNat → (acquire w).1 = some true →
          (∀ w, ∃ c w', curl w = (some c, w') ∧ c.Works) → 0 ≤ config.http.timeout →
          (¬ ∃ c ∈ config.http.api_key, c = 13 ∨ c = 10 ∨ c = 0) →
          (¬ ∃ c ∈ config.http.user_agent, c = 13 ∨ c = 10 ∨ c = 0) → run.2.2 ≠ []) := by
  intro run
  have hrun := get_run ⟨some config⟩
    (OpenMeteoClient.recording ⟨some config⟩ acquire curl sleep_for jitter) glaze r (w, [])
  have hplain := get_run ⟨some config⟩
    (OpenMeteoClient.services ⟨some config⟩ acquire curl sleep_for jitter) glaze r w
  have hsent : run.2.2 = (OpenMeteoClient.do_get ⟨some config⟩
      (OpenMeteoClient.recording ⟨some config⟩ acquire curl sleep_for jitter) (config.full_url r)
        (w, [])).2.2 := congrArg (fun run => run.2.2) hrun
  refine ⟨?_, ?_, ?_, decode_wire_url config r, wire_pairs_nodup config r, ?_⟩
  · have hsame := ((recording_mirrors config acquire curl sleep_for jitter).do_get ⟨some config⟩
      (config.full_url r) (w, [])).1
    rw [hplain]
    exact (congrArg Prod.fst hrun).trans (congrArg (Option.map (r.outcome glaze)) hsame)
  · rcases Nat.eq_zero_or_pos config.retry.max_attempts.toNat with hzero | hpos
    · rw [do_get_zero rfl _ _ hzero] at hsent
      exact ⟨0, Nat.zero_le _, hsent⟩
    · obtain ⟨n, hn, hlog⟩ := recording_retry config acquire curl sleep_for jitter hcurl r
        (config.retry.max_attempts.toNat - 1) 1 (w, [])
      rw [do_get_eq rfl _ _ hpos] at hsent
      exact ⟨n, by omega, hsent.trans hlog⟩
  · -- libcurl reads the URL as a C string, which loses nothing of it
    rw [HttpClientConfig.options, c_str, until_terminator_of_not_mem (wire_url_no_nul config r)]
    rfl
  · intro hpos hgranted hworks htimeout hkey hagent
    rw [do_get_eq rfl _ _ hpos] at hsent
    rw [hsent]
    refine recording_retry_sends config acquire curl sleep_for jitter hcurl hgranted
      (fun w => ?_) _ _
    obtain ⟨c, w', hc, hcworks⟩ := hworks w
    exact ⟨c, w', hc, sends_wire_url (hcurl w c w' hc) hcworks htimeout hkey hagent r⟩

/-- The configuration of a customer with one attempt. -/
def customer : OpenMeteoClient.Config :=
  { http := { api_key := text "k&1" }, retry := { max_attempts := 1 },
    use_customer_endpoints := true }

/-- A customer looks a place up: one request is sent, and its URL says what was asked. -/
theorem requests_on_the_wire_customer :
    (Request.get ⟨some customer⟩ (OpenMeteoClient.recording ⟨some customer⟩ (pure true)
        (pure (Curl.recorded [])) (fun _ => pure ()) (pure 1))
      ⟨fun _ => .error [], fun _ => .error [], fun _ => .error []⟩
      (.geocoding { name := text "New York", count := some 2 }) ((), [])).2.2
        = [customer.http.options (text "https://customer-geocoding-api.open-meteo.com/v1/search"
          ++ text "?name=New%20York&count=2&apikey=k%261")]
      ∧ decode_url (text "https://customer-geocoding-api.open-meteo.com/v1/search"
          ++ text "?name=New%20York&count=2&apikey=k%261")
        = some (text "https://customer-geocoding-api.open-meteo.com/v1/search",
          [(text "name", .text (text "New York")), (text "count", .int 2),
            (text "apikey", .text (text "k&1"))]) := by
  let curl : Proc Unit Curl := pure (Curl.recorded [])
  have hescapes : ∀ w c w', curl w = (some c, w') → c.Escapes := by
    rintro w c w' hcurl key escaped hescaped
    cases hcurl
    exact (Option.some.inj hescaped).symm
  have hworks : ∀ w, ∃ c w', curl w = (some c, w') ∧ c.Works := fun w =>
    ⟨_, w, rfl, rfl, fun _ => Option.some_ne_none _, rfl, fun _ => rfl⟩
  obtain ⟨-, ⟨n, hn, hlog⟩, -, hdecode, -, hsent⟩ := requests_on_the_wire customer
    (.geocoding { name := text "New York", count := some 2 }) (pure true) curl (fun _ => pure ())
    (pure 1) hescapes ⟨fun _ => .error [], fun _ => .error [], fun _ => .error []⟩ ()
  have hsome := hsent (by decide) rfl hworks (by decide) (by decide +kernel) (by decide +kernel)
  -- at most one, and not none
  have hone : n = 1 := by
    refine le_antisymm hn (Nat.pos_of_ne_zero ?_)
    rintro rfl
    exact hsome hlog
  subst hone
  have hurl : customer.wire_url (.geocoding { name := text "New York", count := some 2 })
      = text "https://customer-geocoding-api.open-meteo.com/v1/search"
        ++ text "?name=New%20York&count=2&apikey=k%261" := by decide +kernel
  rw [hurl] at hlog hdecode
  exact ⟨hlog, hdecode⟩

/-! ## What a URL says about its request -/

/-- The pairs of fields are their names and values put together. -/
theorem pairs_of_values (fs : List Field) :
    fs.filterMap Field.pair
      = ((fs.map Field.name).zip (fs.map Field.value)).filterMap fun e =>
          e.2.map fun v => (e.1, v) := by
  induction fs with
  | nil => rfl
  | cons f rest ih =>
    rw [List.map_cons, List.map_cons, List.zip_cons_cons, List.filterMap_cons,
      List.filterMap_cons, ih, Field.pair]

/-- Fields of the same names put the same pairs into a query only with the same
values, by induction on the fields. -/
theorem values_of_pairs {fs : List Field} :
    ∀ {fs' : List Field}, fs.map Field.name = fs'.map Field.name → (fs.map Field.name).Nodup →
      fs.filterMap Field.pair = fs'.filterMap Field.pair →
      fs.map Field.value = fs'.map Field.value := by
  induction fs with
  | nil =>
    intro fs' hnames _ _
    cases fs' with
    | nil => rfl
    | cons f' rest' => cases hnames
  | cons f rest ih =>
    intro fs' hnames hnodup hpairs
    cases fs' with
    | nil => cases hnames
    | cons f' rest' =>
      rw [List.map_cons, List.map_cons, List.cons.injEq] at hnames
      rw [List.map_cons, List.nodup_cons] at hnodup
      obtain ⟨hname, hnames⟩ := hnames
      obtain ⟨hfresh, hnodup⟩ := hnodup
      rw [List.filterMap_cons, List.filterMap_cons, Field.pair, Field.pair] at hpairs
      -- a name that only one of them sends would be sent by a later field of the other
      have hlater : ∀ {fs : List Field} {v : Value} {pairs : List (Bytes × Value)},
          fs.map Field.name = rest.map Field.name →
          fs.filterMap Field.pair = (f.name, v) :: pairs → False := by
        intro fs v pairs hfs heq
        have hsub := pairs_keys_sublist fs
        rw [heq, hfs] at hsub
        exact hfresh (hsub.subset (List.mem_cons_self ..))
      rw [List.map_cons, List.map_cons]
      cases hv : f.value with
      | none =>
        cases hv' : f'.value with
        | none =>
          rw [hv, hv'] at hpairs
          rw [ih hnames hnodup hpairs]
        | some v' =>
          rw [hv, hv', ← hname] at hpairs
          exact absurd hpairs (hlater rfl)
      | some v =>
        cases hv' : f'.value with
        | none =>
          rw [hv, hv'] at hpairs
          exact absurd hpairs.symm (hlater hnames.symm)
        | some v' =>
          rw [hv, hv'] at hpairs
          obtain ⟨hhead, hrest⟩ := List.cons.inj hpairs
          rw [ih hnames hnodup hrest, (Prod.mk.inj hhead).2]

/-- **A URL identifies its request.** The requests of two clients have the same URL
exactly if they go to the same endpoint, with the customer prefix or without it,
under the same key, and send the same value for every field. -/
theorem same_url_iff (config config' : OpenMeteoClient.Config) (r r' : Request) :
    config.wire_url r = config'.wire_url r'
      ↔ r.blank = r'.blank ∧ config.use_customer_endpoints = config'.use_customer_endpoints
        ∧ config.http.api_key = config'.http.api_key
        ∧ r.fields.map Field.value = r'.fields.map Field.value := by
  refine ⟨fun heq => ?_, ?_⟩
  · -- both read back as what they were made of
    have hread := decode_wire_url config r
    rw [heq, decode_wire_url config' r', Option.some.injEq, Prod.mk.injEq] at hread
    obtain ⟨hhost, hpairs⟩ := hread
    obtain ⟨hblank, hcustomer⟩ := Request.host_inj hhost.symm
    have hnames : r.fields.map Field.name = r'.fields.map Field.name := by
      rw [fields_names_blank r, fields_names_blank r', hblank]
    have hsplit : config.http.api_key = config'.http.api_key
        ∧ r.fields.filterMap Field.pair = r'.fields.filterMap Field.pair := by
      unfold OpenMeteoClient.Config.wire_pairs at hpairs
      by_cases hkey : config.http.api_key.isEmpty = true
      · rw [if_pos hkey, List.append_nil] at hpairs
        by_cases hkey' : config'.http.api_key.isEmpty = true
        · rw [if_pos hkey', List.append_nil] at hpairs
          rw [List.isEmpty_iff.mp hkey, List.isEmpty_iff.mp hkey']
          exact ⟨rfl, hpairs.symm⟩
        · rw [if_neg hkey'] at hpairs
          refine absurd ?_ (apikey_not_sent r)
          rw [← hpairs, List.map_append]
          exact List.mem_append_right _ (List.mem_cons_self ..)
      · rw [if_neg hkey] at hpairs
        by_cases hkey' : config'.http.api_key.isEmpty = true
        · rw [if_pos hkey', List.append_nil] at hpairs
          refine absurd ?_ (apikey_not_sent r')
          rw [hpairs, List.map_append]
          exact List.mem_append_right _ (List.mem_cons_self ..)
        · rw [if_neg hkey'] at hpairs
          obtain ⟨hfields, hlast⟩ := List.append_inj' hpairs rfl
          obtain ⟨hpair, -⟩ := List.cons.inj hlast
          exact ⟨(Value.text.inj (Prod.mk.inj hpair).2).symm, hfields.symm⟩
    exact ⟨hblank, hcustomer, hsplit.1,
      values_of_pairs hnames (fields_names r).1 hsplit.2⟩
  · rintro ⟨hblank, hcustomer, hkey, hvalues⟩
    have hnames : r.fields.map Field.name = r'.fields.map Field.name := by
      rw [fields_names_blank r, fields_names_blank r', hblank]
    have hpairs : config.wire_pairs r = config'.wire_pairs r' := by
      unfold OpenMeteoClient.Config.wire_pairs
      rw [pairs_of_values r.fields, pairs_of_values r'.fields, hnames, hvalues, hkey]
    rw [wire_url_eq, wire_url_eq, hpairs, hcustomer, r.host_blank, r'.host_blank, hblank]

end OpenMeteo
