import MegaVnc.FileTransfer.FileService

/-! # SecurityConfig

Which requests reach a controller. The firewall in front lets only normalized
paths through, so a path is the list of its segments; a trailing slash is a last
empty segment. The form login adds a rule for its own page, and the login and
logout filters answer their own paths; none of them writes to the database.
-/

namespace MegaVnc

/-- The methods that reach a controller. -/
inductive HttpMethod where
  | get
  | head
  | post
  | put
  | patch
  | delete
deriving DecidableEq, Repr

/-- The JSON object in a body, with the texts of its fields. A null field is left out. -/
abbrev RequestBody := List (String × String)

/-- A request with the principal of its session. The parameters are those of the query
and of a form; a body that is no JSON object is none. -/
structure HttpRequest where
  method : HttpMethod
  path : List String
  user : Option User
  parameters : List (String × String)
  body : Option RequestBody
  file : Option MultipartFile
deriving DecidableEq, Repr

/-- A parameter of the query or of the form. -/
def HttpRequest.parameter (request : HttpRequest) (name : String) : Option String :=
  request.parameters.lookup name

/-- No principal, or one without the role of administrators. -/
def HttpRequest.Unprivileged (request : HttpRequest) : Prop :=
  ∀ user ∈ request.user, user.isAdmin = false

instance (request : HttpRequest) : Decidable request.Unprivileged :=
  inferInstanceAs (Decidable (∀ user ∈ request.user, _))

/-- The patterns of the configuration: a path, a path with all below it (written
with a trailing `/**`), or any request. -/
inductive AntPathRequestMatcher where
  | exactly (segments : List String)
  | below (segments : List String)
  | anyRequest
deriving DecidableEq, Repr

/-- Whether a path is matched. -/
def AntPathRequestMatcher.matches : AntPathRequestMatcher → List String → Bool
  | .exactly segments, path => path = segments
  | .below segments, path => segments.isPrefixOf path
  | .anyRequest, _ => true

/-- What a rule asks of the user. -/
inductive Access where
  | permitAll
  | hasRole (role : String)
  | authenticated
deriving DecidableEq, Repr

/-- Whether the user meets it. -/
def Access.grants : Access → Option User → Bool
  | .permitAll, _ => true
  | .hasRole role, user => user.any fun user => user.roles.contains ("ROLE_" ++ role)
  | .authenticated, user => user.isSome

namespace SecurityConfig

/-- The ignored paths. -/
def webSecurityCustomizer : List AntPathRequestMatcher :=
  [.below ["css"], .below ["images"], .below ["js"], .below ["api"], .exactly ["favicon.ico"],
    .exactly ["remote-pcs", "download-server"]]

/-- The rules in their order, the first of which that matches decides. -/
def webFilterChain : List (AntPathRequestMatcher × Access) :=
  [(.exactly ["register"], .permitAll),
    (.below ["files", "download"], .permitAll),
    (.below ["files", "download-files"], .permitAll),
    (.below ["files", "delete-files"], .hasRole "ADMIN"),
    (.below ["admin"], .hasRole "ADMIN"),
    (.anyRequest, .authenticated)]

/-- The path is not checked at all. -/
def ignores (path : List String) : Bool :=
  webSecurityCustomizer.any fun pattern => pattern.matches path

/-- An ignored path is not checked; any other by the first rule that matches. -/
def admits (request : HttpRequest) : Bool :=
  ignores request.path ||
    (webFilterChain.find? fun rule => rule.1.matches request.path).any fun rule =>
      rule.2.grants request.user

/-- The pages of the administration are for administrators. -/
theorem not_admits_admin {request : HttpRequest} {rest : List String}
    (path : request.path = "admin" :: rest) (unprivileged : request.Unprivileged) :
    admits request = false := by
  have checked : (webFilterChain.find? fun rule => rule.1.matches request.path) =
      some (.below ["admin"], .hasRole "ADMIN") := by
    rw [path]
    simp [webFilterChain, AntPathRequestMatcher.matches]
  have exposed : ignores request.path = false := by
    rw [path]
    simp [ignores, webSecurityCustomizer, AntPathRequestMatcher.matches, List.isPrefixOf]
  have refused : Access.grants (.hasRole "ADMIN") request.user = false := by
    cases principal : request.user with
    | none => rfl
    | some user => exact unprivileged user principal
  rw [admits, exposed, checked, Option.any_some, refused]
  rfl

end SecurityConfig

end MegaVnc
