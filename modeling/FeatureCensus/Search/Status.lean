/-!
# Status codes

The numbers of server answers that are errors, and the phrases that explain them.

Main results:

- Theorem {lit}`Status.errorSide?_eq_none_iff`: just the codes from 400 to 599 are errors.
-/

namespace FeatureCensus
namespace Status

/-- Whose error a status code reports, if it reports one. -/
def errorSide? (code : Int) : Option String :=
  if 400 ≤ code && code < 500 then some "Client"
  else if 500 ≤ code && code < 600 then some "Server"
  else none

/-- Just the codes from 400 to 599 are errors. -/
theorem errorSide?_eq_none_iff (code : Int) : errorSide? code = none ↔ code < 400 ∨ 600 ≤ code := by
  unfold errorSide?
  split
  · simp_all
    omega
  · split <;> simp_all <;> omega

/-- The usual phrases of the codes that are errors. -/
def phrases : List (Int × String) :=
  [(400, "Bad Request"),
    (401, "Unauthorized"),
    (402, "Payment Required"),
    (403, "Forbidden"),
    (404, "Not Found"),
    (405, "Method Not Allowed"),
    (406, "Not Acceptable"),
    (407, "Proxy Authentication Required"),
    (408, "Request Timeout"),
    (409, "Conflict"),
    (410, "Gone"),
    (411, "Length Required"),
    (412, "Precondition Failed"),
    (413, "Request Entity Too Large"),
    (414, "Request-URI Too Long"),
    (415, "Unsupported Media Type"),
    (416, "Requested Range Not Satisfiable"),
    (417, "Expectation Failed"),
    (418, "I'm a Teapot"),
    (421, "Misdirected Request"),
    (422, "Unprocessable Entity"),
    (423, "Locked"),
    (424, "Failed Dependency"),
    (425, "Too Early"),
    (426, "Upgrade Required"),
    (428, "Precondition Required"),
    (429, "Too Many Requests"),
    (431, "Request Header Fields Too Large"),
    (451, "Unavailable For Legal Reasons"),
    (500, "Internal Server Error"),
    (501, "Not Implemented"),
    (502, "Bad Gateway"),
    (503, "Service Unavailable"),
    (504, "Gateway Timeout"),
    (505, "HTTP Version Not Supported"),
    (506, "Variant Also Negotiates"),
    (507, "Insufficient Storage"),
    (508, "Loop Detected"),
    (510, "Not Extended"),
    (511, "Network Authentication Required")]

/-- The usual phrase of a code, which is empty for an unknown one. -/
def phrase (code : Int) : String :=
  (phrases.lookup code).getD ""

end Status
end FeatureCensus
