/-
`HttpClient` of `src/http/client.cpp`.

libcurl is a record of functions, `Curl`: a transfer is the sequence of
callbacks it makes, with the code it reports at the end, and may depend on
every option it was given. `request` is all that happens before
`curl_easy_perform`, and returns the options the handle was configured with.
`perform` is the whole of `get`, with the request it sends on the way beside its
result, so what is said of the one is said of the other. `std::size_t` is 64
bits wide.
-/
import OpenMeteo.Error
import OpenMeteo.Lib.StringView
import Mathlib.Data.Nat.Basic

set_option autoImplicit false

namespace OpenMeteo

open StringView

/-! ## URLs -/

def scheme_chars : Bytes :=
  text "abcdefghijklmnopqrstuvwxyzABCDEFGHIJKLMNOPQRSTUVWXYZ0123456789+.-"

def is_absolute_url (value : Bytes) : Bool :=
  match find_text value (text "://") with
  | none => false
  | some stop =>
    -- the source joins this test and the one for `npos`
    if stop = 0 then false
    else
      let first := value.headD 0
      if ¬ ((97 ≤ first ∧ first ≤ 122) ∨ (65 ≤ first ∧ first ≤ 90)) then false
      else (find_first_not_of (substr value 0 stop) scheme_chars).isNone

/-! ## The callbacks -/

/-- One `data, size, count` triple libcurl hands over, which promises
`size * count` bytes of data, and whether an append of it finds memory. -/
structure Chunk where
  data : Bytes
  size : UInt64
  count : UInt64
  allocates : Bool := true
  holds : data.length = size.toNat * count.toNat

/-- `struct ResponseSink`. -/
structure ResponseSink where
  response : HttpResponse := ⟨0, [], []⟩
  limit : UInt64
  overflowed : Bool := false
  deriving DecidableEq, Repr

/-- `std::numeric_limits<std::size_t>::max()`. -/
def size_max : UInt64 := 18446744073709551615

/-- `body.size()`. -/
def ResponseSink.body_size (sink : ResponseSink) : UInt64 :=
  UInt64.ofNat sink.response.body.length

def write_callback (sink : ResponseSink) (chunk : Chunk) : ResponseSink × UInt64 :=
  -- the product would wrap; this refusal does not set `overflowed`
  if chunk.size ≠ 0 ∧ chunk.count > size_max / chunk.size then (sink, 0)
  else
    let bytes := chunk.size * chunk.count
    if sink.limit > 0 ∧ bytes > sink.limit - sink.body_size then
      ({ sink with overflowed := true }, 0)
    else if chunk.allocates then
      let body := sink.response.body ++ chunk.data.take bytes.toNat
      ({ sink with response := { sink.response with body := body } }, bytes)
    -- a failed append throws, and leaves the body as it was
    else (sink, 0)

/-- `" \t\r\n"`. -/
def blanks : Bytes := [32, 9, 13, 10]

def header_callback (sink : ResponseSink) (chunk : Chunk) : ResponseSink × UInt64 :=
  if chunk.size ≠ 0 ∧ chunk.count > size_max / chunk.size then (sink, 0)
  else
    let bytes := chunk.size * chunk.count
    let line := chunk.data.take bytes.toNat
    -- the test for a status line and the search for a colon look at the same line
    let headers := if starts_with line (text "HTTP/") then [] else sink.response.headers
    match find line 58 with
    | none => ({ sink with response := { sink.response with headers := headers } }, bytes)
    | some colon =>
      let raw := line.drop (colon + 1)
      let value :=
        match find_first_not_of raw blanks, find_last_not_of raw blanks with
        | some start, some stop => substr raw start (stop - start + 1)
        | _, _ => []
      if chunk.allocates then
        let headers := headers ++ [(substr line 0 colon, value)]
        ({ sink with response := { sink.response with headers := headers } }, bytes)
      -- `emplace_back` throws after the headers have been cleared
      else ({ sink with response := { sink.response with headers := headers } }, 0)

def invalid_header (value : Bytes) : Bool := (find_first_of value [13, 10, 0]).isSome

/-! ## libcurl -/

inductive CURLcode
  | CURLE_OK
  | CURLE_OPERATION_TIMEDOUT
  | other (code : ℕ)
  deriving DecidableEq, Repr

/-- One call of a callback. -/
inductive Callback
  | write (chunk : Chunk)
  | header (chunk : Chunk)

def Callback.chunk : Callback → Chunk
  | .write chunk => chunk
  | .header chunk => chunk

/-- What a callback does, and what it returns to libcurl. -/
def Callback.call (sink : ResponseSink) : Callback → ResponseSink × UInt64
  | .write chunk => write_callback sink chunk
  | .header chunk => header_callback sink chunk

/-- The sink after a sequence of callbacks. -/
def deliver (sink : ResponseSink) (callbacks : List Callback) : ResponseSink :=
  callbacks.foldl (fun sink callback => (callback.call sink).1) sink

/-- The options `HttpClient::get` sets. The two data options point to the sink. -/
inductive CurlOption
  | URL (url : Bytes)
  | PROTOCOLS_STR (protocols : Bytes)
  | REDIR_PROTOCOLS_STR (protocols : Bytes)
  | WRITEFUNCTION
  | WRITEDATA (sink : ResponseSink)
  | HEADERFUNCTION
  | HEADERDATA (sink : ResponseSink)
  | HTTPHEADER (headers : List Bytes)
  | TIMEOUT (seconds : ℤ)
  | NOSIGNAL (value : ℤ)
  | USERAGENT (user_agent : Bytes)
  | ACCEPT_ENCODING (encodings : Bytes)
  | FOLLOWLOCATION (value : ℤ)
  | MAXREDIRS (value : ℤ)
  | SSL_VERIFYPEER (value : ℤ)
  | SSL_VERIFYHOST (value : ℤ)
  deriving DecidableEq, Repr

/-- A transfer: the callbacks made, the code reported, and the status code, or
none where `curl_easy_getinfo` fails. -/
structure Transfer where
  callbacks : List Callback
  result : CURLcode
  response_code : Option ℤ

structure Curl where
  /-- Whether `curl_global_init` and `curl_easy_init` gave a handle. -/
  handle : Bool := true
  /-- `none` for a null pointer. -/
  easy_escape : Bytes → Option Bytes
  /-- Whether `curl_slist_append` finds memory. -/
  slist_append : Bool := true
  easy_setopt : CurlOption → CURLcode
  easy_perform : List CurlOption → Transfer
  easy_strerror : CURLcode → Bytes

/-! ## The client -/

/-- `struct HttpClientConfig`. -/
structure HttpClientConfig where
  base_url : Bytes := text "https://api.open-meteo.com"
  user_agent : Bytes := text "open-meteo-cpp/0.4.0"
  api_key : Bytes := []
  timeout : ℤ := 30
  verify_ssl : Bool := true
  max_response_bytes : UInt64 := 64 * 1024 * 1024
  deriving DecidableEq, Repr

/-- `class HttpClient`. A moved-from client has no `impl_`. -/
structure HttpClient where
  impl_ : Option HttpClientConfig
  deriving DecidableEq, Repr

/-- `std::string(path)` or `config.base_url + std::string(path)`. -/
def HttpClientConfig.join_url (config : HttpClientConfig) (path : Bytes) : Bytes :=
  if is_absolute_url path then path else config.base_url ++ path

/-- What `c_str()` shows to a C function. -/
def c_str (value : Bytes) : Bytes := until_terminator 0 value

/-- The insertion of the escaped key before the fragment. -/
def insert_api_key (url encoded : Bytes) : Bytes :=
  let fragment := find url 35
  let stop := fragment.getD url.length
  let separator : UInt8 := if find (substr url 0 stop) 63 = none then 63 else 38
  insert url stop ([separator] ++ text "apikey=" ++ encoded)

/-- The URL with the configured key, if there is one. -/
def HttpClientConfig.keyed_url (config : HttpClientConfig) (curl : Curl) (path : Bytes) :
    Result Bytes :=
  let url := config.join_url path
  if config.api_key.isEmpty then .ok url
  else
    -- the key is read as a C string here, and checked for NUL only in `request`
    match curl.easy_escape (c_str config.api_key) with
    | none => .error (Error.network (text "Could not encode API key"))
    | some encoded => .ok (insert_api_key url (c_str encoded))

/-- `std::numeric_limits<long>::max()`. -/
def long_max : ℤ := 9223372036854775807

def HttpClientConfig.sink (config : HttpClientConfig) : ResponseSink :=
  { limit := config.max_response_bytes }

/-- The options, in the order they are set. -/
def HttpClientConfig.options (config : HttpClientConfig) (url : Bytes) : List CurlOption :=
  let timeout := min config.timeout long_max
  let verify : ℤ := if config.verify_ssl then 1 else 0
  [.URL (c_str url),
    .PROTOCOLS_STR (text "http,https"),
    .REDIR_PROTOCOLS_STR (text "http,https"),
    .WRITEFUNCTION,
    .WRITEDATA config.sink,
    .HEADERFUNCTION,
    .HEADERDATA config.sink,
    .HTTPHEADER [text "Accept: application/json"],
    .TIMEOUT timeout,
    .NOSIGNAL 1,
    .USERAGENT (c_str config.user_agent),
    .ACCEPT_ENCODING [],
    .FOLLOWLOCATION 1,
    .MAXREDIRS 10,
    .SSL_VERIFYPEER verify,
    .SSL_VERIFYHOST (verify * 2)]

/-- Everything `HttpClient::get` does before it sends. -/
def HttpClientConfig.request (config : HttpClientConfig) (curl : Curl) (path : Bytes) :
    Result (List CurlOption) :=
  match config.keyed_url curl path with
  | .error error => .error error
  | .ok url =>
    if find url 0 ≠ none ∨ invalid_header config.user_agent ∨ invalid_header config.api_key
        ∨ config.timeout < 0 then
      .error (Error.invalid_request (text "Invalid URL, header, or timeout"))
    else if ¬ curl.slist_append then
      .error (Error.network (text "Could not allocate HTTP headers"))
    else if (config.options url).all fun option => curl.easy_setopt option = .CURLE_OK then
      .ok (config.options url)
    else .error (Error.network (text "libcurl rejected a required option"))

/-- What `HttpClient::get` makes of a transfer, given the sink it left. -/
def finish (curl : Curl) (transfer : Transfer) (sink : ResponseSink) : Result HttpResponse :=
  -- the mark comes before the code libcurl reports
  if sink.overflowed then
    .error (Error.invalid_request
      (text "Response exceeded HttpClientConfig::max_response_bytes"))
  else if transfer.result = .CURLE_OPERATION_TIMEDOUT then
    .error (Error.timeout (curl.easy_strerror transfer.result))
  else if transfer.result ≠ .CURLE_OK then
    .error (Error.network (curl.easy_strerror transfer.result))
  else
    match transfer.response_code with
    | none => .error (Error.network (text "libcurl did not return HTTP status"))
    | some status => .ok { sink.response with status_code := Int16.ofInt status }

/-- The body of `HttpClient::get`: the request it hands to `curl_easy_perform`, if
it gets that far, and what it returns. -/
def HttpClient.perform (client : HttpClient) (curl : Curl) (path : Bytes) :
    Option (HttpClientConfig × List CurlOption) × Result HttpResponse :=
  match client.impl_ with
  | none => (none, .error (Error.network (text "CURL not initialized")))
  | some config =>
    if ¬ curl.handle then (none, .error (Error.network (text "CURL not initialized")))
    else
      match config.request curl path with
      | .error error => (none, .error error)
      | .ok options =>
        -- the callbacks have written to the sink when the transfer returns
        let transfer := curl.easy_perform options
        (some (config, options), finish curl transfer (deliver config.sink transfer.callbacks))

def HttpClient.get (client : HttpClient) (curl : Curl) (path : Bytes) : Result HttpResponse :=
  (client.perform curl path).2

/-- The options of the request `get` sends, if it sends one. -/
def HttpClient.sent (client : HttpClient) (curl : Curl) (path : Bytes) :
    Option (HttpClientConfig × List CurlOption) :=
  (client.perform curl path).1

/-! ## Whether a request is sent -/

/-- What `get` does, by whether it sends a request. -/
theorem get_cases (client : HttpClient) (curl : Curl) (path : Bytes) :
    (client.sent curl path = none ∧ ∃ error, client.get curl path = .error error)
      ∨ ∃ config options, client.impl_ = some config ∧ curl.handle = true
          ∧ config.request curl path = .ok options
          ∧ client.sent curl path = some (config, options)
          ∧ client.get curl path = finish curl (curl.easy_perform options)
              (deliver config.sink (curl.easy_perform options).callbacks) := by
  unfold HttpClient.sent HttpClient.get HttpClient.perform
  cases himpl : client.impl_ with
  | none => exact Or.inl ⟨rfl, _, rfl⟩
  | some config =>
    by_cases hhandle : curl.handle = true
    · simp only [hhandle, not_true_eq_false, if_false]
      cases hrequest : config.request curl path with
      | error error => exact Or.inl ⟨rfl, _, rfl⟩
      | ok options => exact Or.inr ⟨config, options, rfl, trivial, hrequest, rfl, rfl⟩
    · simp only [hhandle, Bool.false_eq_true, not_false_eq_true, if_true]
      exact Or.inl ⟨trivial, _, rfl⟩

/-- A request that passes every check is sent. -/
theorem sent_of_request {client : HttpClient} {config : HttpClientConfig}
    (himpl : client.impl_ = some config) {curl : Curl} (hhandle : curl.handle = true)
    {path : Bytes} {options : List CurlOption} (h : config.request curl path = .ok options) :
    client.sent curl path = some (config, options) := by
  simp only [HttpClient.sent, HttpClient.perform, himpl, hhandle, not_true_eq_false, if_false, h]

/-- What is known when a request is sent: it passed every check, and `get` returns
what it makes of the transfer. -/
theorem sent_spec {client : HttpClient} {curl : Curl} {path : Bytes}
    {config : HttpClientConfig} {options : List CurlOption}
    (hsent : client.sent curl path = some (config, options)) :
    client.impl_ = some config ∧ config.request curl path = .ok options
      ∧ client.get curl path = finish curl (curl.easy_perform options)
          (deliver config.sink (curl.easy_perform options).callbacks) := by
  rcases get_cases client curl path with ⟨hnone, -⟩
      | ⟨config', options', himpl, -, hrequest, hsent', hget⟩
  · rw [hnone] at hsent
    cases hsent
  · rw [hsent', Option.some.injEq, Prod.mk.injEq] at hsent
    obtain ⟨rfl, rfl⟩ := hsent
    exact ⟨himpl, hrequest, hget⟩

/-- What is known of a request that is sent. -/
theorem request_ok {config : HttpClientConfig} {curl : Curl} {path : Bytes}
    {options : List CurlOption} (h : config.request curl path = .ok options) :
    ∃ url, config.keyed_url curl path = .ok url ∧ options = config.options url ∧ 0 ∉ url
      ∧ invalid_header config.user_agent = false ∧ invalid_header config.api_key = false := by
  unfold HttpClientConfig.request at h
  split at h
  · cases h
  · next url hurl =>
    split at h
    · cases h
    · next hchecks =>
      rw [not_or, not_or, not_or] at hchecks
      obtain ⟨hnul, hagent, hkey, -⟩ := hchecks
      split at h
      · cases h
      · split at h
        · cases h
          exact ⟨url, hurl, rfl, find_eq_none.mp (not_not.mp hnul), by simpa using hagent,
            by simpa using hkey⟩
        · cases h

end OpenMeteo
