import DdAppsec.Extension.Verdict

/-!
# Extension — the page of a blocked request

`requestAbortStaticPage` and `ddRequestAbortRedirect` end a request: they throw
away what the application has put out so far, as long as nothing of it has been
sent, and give an answer of their own. Each is the list of the calls that it
makes into PHP (`SapiCall`).

`HttpAnswer.after` is what such calls do to an answer that has not been sent. How
PHP sets a header is its own affair, and a parameter.
-/

namespace DdAppsec.Extension

open Lib

/-! ## Calls into PHP -/

inductive SapiCall where
  /-- `_force_destroy_output_handlers` -/
  | destroyOutputHandlers
  /-- `sapi_header_op` with `SAPI_HEADER_DELETE_ALL` -/
  | deleteHeaders
  /-- `php_output_discard_all` -/
  | discardOutput
  /-- `SG(sapi_headers).http_response_code` -/
  | responseCode (code : Int)
  /-- `sapi_header_op` with `SAPI_HEADER_REPLACE` -/
  | replaceHeader (line : Bytes)
  /-- `php_output_write` -/
  | output (text : Bytes)
  /-- `sapi_flush` -/
  | flush
  /-- `_emit_error` -/
  | emitError (message : Bytes)
  deriving DecidableEq

/-- What an abort finds: an output handler that is running, headers that have
been sent, the end of the request, `$_SERVER` and the configured pages. -/
structure AbortEnv where
  outputRunning : Bool
  headersSent : Bool
  duringRequestShutdown : Bool
  server : Option HashTable
  customErrorHtml : Option Bytes
  customErrorJson : Option Bytes

def staticErrorHtml : Bytes :=
  Bytes.ofString (
    "<!DOCTYPE html><html lang=\"en\"><head><meta charset=\"UTF-8\"><meta name=\"viewport" ++
    "\" content=\"width=device-width,initial-scale=1\"><title>You've been blocked</title>" ++
    "<style>a,body,div,html,span\x7bmargin:0;padding:0;border:0;font-size:100%;font:inher" ++
    "it;vertical-align:baseline\x7dbody\x7bbackground:-webkit-radial-gradient(26% 19%,cir" ++
    "cle,#fff,#f4f7f9);background:radial-gradient(circle at 26% 19%,#fff,#f4f7f9);display" ++
    ":-webkit-box;display:-ms-flexbox;display:flex;-webkit-box-pack:center;-ms-flex-pack:" ++
    "center;justify-content:center;-webkit-box-align:center;-ms-flex-align:center;align-i" ++
    "tems:center;-ms-flex-line-pack:center;align-content:center;width:100%;min-height:100" ++
    "vh;line-height:1;flex-direction:column\x7dp\x7bdisplay:block\x7dmain\x7btext-align:c" ++
    "enter;flex:1;display:-webkit-box;display:-ms-flexbox;display:flex;-webkit-box-pack:c" ++
    "enter;-ms-flex-pack:center;justify-content:center;-webkit-box-align:center;-ms-flex-" ++
    "align:center;align-items:center;-ms-flex-line-pack:center;align-content:center;flex-" ++
    "direction:column\x7dp\x7bfont-size:18px;line-height:normal;color:#646464;font-family" ++
    ":sans-serif;font-weight:400\x7da\x7bcolor:#4842b7\x7dfooter\x7bwidth:100%;text-align" ++
    ":center\x7dfooter p\x7bfont-size:16px\x7d</style></head><body><main><p>Sorry, you ca" ++
    "nnot access this page. Please contact the customer service team.</p></main><footer><" ++
    "p>Security provided by <a href=\"https://www.datadoghq.com/product/security-platform" ++
    "/application-security-monitoring/\" target=\"_blank\">Datadog</a></p></footer></body" ++
    "></html>")

def staticErrorJson : Bytes :=
  Bytes.ofString (
    "\x7b\"errors\": [\x7b\"title\": \"You've been blocked\", \"detail\": \"Sorry, you ca" ++
    "nnot access this page. Please contact the customer service team. Security provided b" ++
    "y Datadog.\"\x7d]\x7d")

/-! ## The code -/

/-- An error, or only a message in the log at the end of a request. -/
def endWith (env : AbortEnv) (message : Bytes) : List SapiCall :=
  if env.duringRequestShutdown then [] else [.emitError message]

/-- `_abort_prelude`: the calls, and whether to go on. -/
def abortPrelude (env : AbortEnv) : List SapiCall × Bool :=
  let destroy := if env.outputRunning then [SapiCall.destroyOutputHandlers] else []
  if env.headersSent then
    (destroy ++ endWith env
      "Datadog blocked the request, but the response has already been partially committed", false)
  else (destroy ++ [.deleteHeaders, .discardOutput], true)

/-- The type of the page. -/
def pageType (env : AbortEnv) (type : ResponseType) : ResponseType :=
  if type = .auto then getResponseTypeFromAcceptHeader env.server else type

/-- `_set_content_type` and `_set_output` for a type of page. -/
def pageCalls (env : AbortEnv) : ResponseType → List SapiCall
  | .html =>
    [.replaceHeader (Bytes.ofString "Content-type: " ++ htmlContentType),
      .output (env.customErrorHtml.getD staticErrorHtml)]
  | .json =>
    [.replaceHeader (Bytes.ofString "Content-type: " ++ jsonContentType),
      .output (env.customErrorJson.getD staticErrorJson)]
  -- "unknown response type (bug)"
  | .auto => []

/-- `_request_abort_static_page`. -/
def requestAbortStaticPage (env : AbortEnv) (code : Int) (type : ResponseType) :
    List SapiCall :=
  match abortPrelude env with
  | (calls, false) => calls
  | (calls, true) =>
    calls ++ [.responseCode code] ++ pageCalls env (pageType env type) ++ [.flush] ++
      endWith env "Datadog blocked the request and presented a static error page"

/-- `dd_request_abort_static_page`. -/
def AbortState.ddRequestAbortStaticPage (a : AbortState) (env : AbortEnv) :
    List SapiCall :=
  requestAbortStaticPage env a.responseCode a.responseType

/-- `dd_request_abort_redirect`. Without a location there is a page. -/
def AbortState.ddRequestAbortRedirect (a : AbortState) (env : AbortEnv) : List SapiCall :=
  match a.redirectionLocation with
  | none | some [] => requestAbortStaticPage env defaultBlockingResponseCode .auto
  | some location =>
    match abortPrelude env with
    | (calls, false) => calls
    | (calls, true) =>
      calls ++ [.responseCode a.redirectionResponseCode,
          .replaceHeader (Bytes.ofString "Location: " ++ cstr location), .flush] ++
        endWith env (Bytes.ofString
          "Datadog blocked the request and attempted a redirection to " ++ cstr location)

/-- What `_dd_command_exec` returned decides which of the two is called. -/
def AbortState.abort (a : AbortState) (env : AbortEnv) : DdResult → List SapiCall
  | .shouldBlock => a.ddRequestAbortStaticPage env
  | .shouldRedirect => a.ddRequestAbortRedirect env
  | _ => []

/-! ## The answer -/

/-- The status and the headers, as the SAPI has them. -/
structure HttpHead where
  code : Int
  headers : List Bytes
  deriving DecidableEq

structure HttpAnswer where
  head : HttpHead
  body : Bytes
  deriving DecidableEq

section After

-- how PHP replaces a header, which may change the status
variable (replace : HttpHead → Bytes → HttpHead)

/-- One call, while nothing of the answer has been sent. -/
def HttpAnswer.after (a : HttpAnswer) : SapiCall → HttpAnswer
  | .deleteHeaders => { a with head := { a.head with headers := [] } }
  | .discardOutput => { a with body := [] }
  | .responseCode code => { a with head := { a.head with code := code } }
  | .replaceHeader line => { a with head := replace a.head line }
  | .output text => { a with body := a.body ++ text }
  | .destroyOutputHandlers | .flush | .emitError _ => a

/-- The calls of an abort, up to the first `sapi_flush`. -/
def HttpAnswer.afterAll (a : HttpAnswer) (calls : List SapiCall) : HttpAnswer :=
  (calls.takeWhile (· ≠ .flush)).foldl (HttpAnswer.after replace) a

end After

/-! ## The answer of an abort -/

section Answers

variable (replace : HttpHead → Bytes → HttpHead) (a : HttpAnswer) {env : AbortEnv}

/-- **What has been sent stays**: nothing is set and nothing written once the
headers are out. -/
theorem committed_answer (h : env.headersSent = true) (s : AbortState) (res : DdResult) :
    a.afterAll replace (s.abort env res) = a := by
  have hprelude : ∃ calls, abortPrelude env = (calls, false) ∧
      a.afterAll replace calls = a := by
    refine ⟨_, by rw [abortPrelude, h]; rfl, ?_⟩
    rw [HttpAnswer.afterAll, endWith]
    cases env.outputRunning <;> cases env.duringRequestShutdown <;> rfl
  obtain ⟨calls, hcalls, hafter⟩ := hprelude
  have hpage (code : Int) (type : ResponseType) :
      a.afterAll replace (requestAbortStaticPage env code type) = a := by
    rw [requestAbortStaticPage, hcalls]
    exact hafter
  cases res with
  | shouldBlock => exact hpage _ _
  | shouldRedirect =>
    show a.afterAll replace (s.ddRequestAbortRedirect env) = a
    unfold AbortState.ddRequestAbortRedirect
    match s.redirectionLocation with
    | none => exact hpage _ _
    | some [] => exact hpage _ _
    | some (c :: location) =>
      rw [hcalls]
      exact hafter
  | _ => rfl

end Answers

end DdAppsec.Extension
