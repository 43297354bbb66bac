import PolyrepoTemplate.Models
import PolyrepoTemplate.Text.Authority

namespace PolyrepoTemplate

open Text

/-- `quote(value, safe="")`. -/
def quote (value : String) : String := String.ofList (Percent.quote value.toList)

theorem bare_toList_quote (value : String) : Bare (quote value).toList := by
  rw [quote, String.toList_ofList]
  exact bare_quote value.toList

theorem unquote_toList_quote (value : String) :
    Percent.unquote (quote value).toList = value.toList := by
  rw [quote, String.toList_ofList, Percent.unquote_quote]

theorem quote_eq_empty_iff {value : String} : quote value = "" ↔ value = "" := by
  constructor
  · intro h
    have hback := unquote_toList_quote value
    rw [h] at hback
    exact String.toList_injective hback.symm
  · rintro rfl
    rfl

/-- What `PostgresDsn.build` and `RedisDsn.build` are called with. -/
structure DsnParts where
  scheme : String
  host : String
  port : ℤ
  path : String
  username : Option String := none
  password : Option String := none
  query : Option String := none

namespace DsnParts

variable (parts : DsnParts)

/-- A missing user or password, and an empty one, are not written. -/
def userinfo : String :=
  let username := parts.username.getD ""
  let password := parts.password.getD ""
  if password ≠ "" then username ++ ":" ++ password ++ "@"
  else if username ≠ "" then username ++ "@"
  else ""

def server : String := parts.host ++ ":" ++ toString parts.port

/-- The parts put together as they are. -/
def text : String :=
  parts.scheme ++ "://" ++ parts.userinfo ++ parts.server ++ "/" ++ parts.path ++
    parts.query.elim "" ("?" ++ ·)

def authority : List Char := parts.userinfo.toList ++ parts.server.toList

theorem toList_server :
    parts.server.toList = parts.host.toList ++ ':' :: (toString parts.port).toList := by
  have hcolon : ":".toList = [':'] := rfl
  rw [server, String.toList_append, String.toList_append, hcolon, List.append_assoc,
    List.singleton_append]

theorem toList_text : parts.text.toList = parts.scheme.toList ++ ':' :: '/' :: '/' ::
    (parts.authority ++ '/' :: (parts.path.toList ++ (parts.query.elim "" ("?" ++ ·)).toList)) := by
  have hscheme : "://".toList = [':', '/', '/'] := by decide
  have hslash : "/".toList = ['/'] := rfl
  simp only [text, authority, String.toList_append, hscheme, hslash, List.append_assoc,
    List.cons_append, List.nil_append]

variable {parts}

theorem userinfo_inside (husername : Inside (parts.username.getD "").toList)
    (hpassword : Inside (parts.password.getD "").toList) : Inside parts.userinfo.toList := by
  have hcolon : Inside ":".toList := by decide
  have hat : Inside "@".toList := by decide
  unfold userinfo
  dsimp only
  split
  · simp only [String.toList_append]
    exact ((husername.append hcolon).append hpassword).append hat
  · split
    · rw [String.toList_append]
      exact husername.append hat
    · exact List.forall_mem_nil _

theorem authority_inside (husername : Inside (parts.username.getD "").toList)
    (hpassword : Inside (parts.password.getD "").toList) (hhost : PlainHost parts.host.toList) :
    Inside parts.authority := by
  rw [authority, toList_server]
  exact (userinfo_inside husername hpassword).append (hhost.server_inside parts.port)

theorem parse_authority (parts : DsnParts) (hhost : PlainHost parts.host.toList)
    (husername : ':' ∉ (parts.username.getD "").toList) : ∃ username,
    Authority.parse parts.authority = ⟨username,
      if parts.password.getD "" = "" then none else some (parts.password.getD "").toList,
      parts.host.toList, some (toString parts.port).toList⟩ ∧
    (parts.username.getD "" ≠ "" → username = some (parts.username.getD "").toList) := by
  have hcolon : ":".toList = [':'] := rfl
  have hat : "@".toList = ['@'] := rfl
  have hempty : "".toList = [] := rfl
  rw [authority, toList_server, userinfo]
  generalize parts.username.getD "" = username at husername ⊢
  generalize parts.password.getD "" = password
  by_cases hpassword : password = ""
  · by_cases hname : username = ""
    · refine ⟨none, ?_, fun h => absurd hname h⟩
      simp only [hpassword, hname, ne_eq, not_true_eq_false, if_false, if_true, hempty,
        List.nil_append]
      exact hhost.parse_server parts.port
    · refine ⟨some username.toList, ?_, fun _ => rfl⟩
      simp only [hpassword, hname, ne_eq, not_true_eq_false, not_false_eq_true, if_false, if_true,
        String.toList_append, hat, List.append_assoc, List.singleton_append]
      exact hhost.parse_username husername parts.port
  · refine ⟨some username.toList, ?_, fun _ => rfl⟩
    simp only [hpassword, ne_eq, not_false_eq_true, if_true, if_false, String.toList_append,
      hcolon, hat, List.append_assoc, List.cons_append, List.nil_append]
    exact hhost.parse_credentials _ husername parts.port

end DsnParts

/-- One of pydantic's URL classes, for URLs of these schemes. -/
structure DsnBuilder (schemes : List String) where
  build : DsnParts → Except (List ErrorDetail) String
  /-- Nothing is escaped. -/
  build_text {parts : DsnParts} {url : String} : build parts = .ok url → url = parts.text
  /-- A host name, a port and plain texts make a URL. -/
  build_plain (parts : DsnParts) : parts.scheme ∈ schemes → parts.host ≠ "" →
    PlainHost parts.host.toList → 1 ≤ parts.port → parts.port ≤ 65535 →
    Bare (parts.username.getD "").toList → Bare (parts.password.getD "").toList →
    Bare parts.path.toList → parts.query = none → ∃ url, build parts = .ok url

def DsnBuilder.lenient (schemes : List String) : DsnBuilder schemes where
  build parts := .ok parts.text
  build_text h := (Except.ok.inj h).symm
  build_plain _ _ _ _ _ _ _ _ _ _ := ⟨_, rfl⟩

end PolyrepoTemplate
