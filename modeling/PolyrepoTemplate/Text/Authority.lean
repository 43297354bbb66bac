import Mathlib.Data.List.TakeWhile
import PolyrepoTemplate.Text.Url

namespace Text

/-- `str.partition`, if the text has the separator. -/
def partition (sep : Char) (text : List Char) : Option (List Char × List Char) :=
  match text.dropWhile (· ≠ sep) with
  | _ :: back => some (text.takeWhile (· ≠ sep), back)
  | [] => none

def rpartition (sep : Char) (text : List Char) : Option (List Char × List Char) :=
  (partition sep text.reverse).map fun parts => (parts.2.reverse, parts.1.reverse)

theorem partition_append {sep : Char} {front : List Char} (h : sep ∉ front) (back : List Char) :
    partition sep (front ++ sep :: back) = some (front, back) := by
  obtain ⟨htake, hdrop⟩ := cut_first (p := fun c => decide (c ≠ sep))
    (fun c hc => decide_eq_true fun hne => h (hne ▸ hc)) (decide_eq_false (not_not_intro rfl)) back
  rw [partition, hdrop, htake]

theorem partition_of_notMem {sep : Char} {text : List Char} (h : sep ∉ text) :
    partition sep text = none := by
  have hdrop : text.dropWhile (fun c => decide (c ≠ sep)) = [] :=
    List.dropWhile_eq_nil_iff.mpr fun c hc => decide_eq_true fun hne => h (hne ▸ hc)
  rw [partition, hdrop]

theorem rpartition_append {sep : Char} (front : List Char) {back : List Char} (h : sep ∉ back) :
    rpartition sep (front ++ sep :: back) = some (front, back) := by
  have hreverse : (front ++ sep :: back).reverse = back.reverse ++ sep :: front.reverse := by
    simp
  rw [rpartition, hreverse, partition_append (by simpa using h), Option.map_some,
    List.reverse_reverse, List.reverse_reverse]

theorem rpartition_of_notMem {sep : Char} {text : List Char} (h : sep ∉ text) :
    rpartition sep text = none := by
  rw [rpartition, partition_of_notMem (by simpa using h), Option.map_none]

/-- `[username[:password]@]host[:port]`. -/
structure Authority where
  username : Option (List Char)
  password : Option (List Char)
  host : List Char
  port : Option (List Char)
  deriving DecidableEq, Repr

namespace Authority

def splitUserinfo (userinfo : List Char) : Option (List Char) × Option (List Char) :=
  match partition ':' userinfo with
  | some (username, password) => (some username, some password)
  | none => (some userinfo, none)

def splitHostport (hostport : List Char) : List Char × Option (List Char) :=
  match partition ':' hostport with
  | some (host, port) => (host, some port)
  | none => (hostport, none)

def parse (authority : List Char) : Authority :=
  match rpartition '@' authority with
  | some (userinfo, hostport) =>
    ⟨(splitUserinfo userinfo).1, (splitUserinfo userinfo).2, (splitHostport hostport).1,
      (splitHostport hostport).2⟩
  | none => ⟨none, none, (splitHostport authority).1, (splitHostport authority).2⟩

theorem splitHostport_append {host : List Char} (h : ':' ∉ host) (port : List Char) :
    splitHostport (host ++ ':' :: port) = (host, some port) := by
  rw [splitHostport, partition_append h]

theorem parse_credentials {username host port : List Char} (password : List Char)
    (husername : ':' ∉ username) (hhost : ':' ∉ host) (hhost' : '@' ∉ host) (hport : '@' ∉ port) :
    parse (username ++ ':' :: (password ++ '@' :: (host ++ ':' :: port))) =
      ⟨some username, some password, host, some port⟩ := by
  have htext : username ++ ':' :: (password ++ '@' :: (host ++ ':' :: port)) =
      (username ++ ':' :: password) ++ '@' :: (host ++ ':' :: port) := by
    rw [List.append_assoc, List.cons_append]
  have huserinfo : splitUserinfo (username ++ ':' :: password) =
      (some username, some password) := by
    rw [splitUserinfo, partition_append husername]
  have hcut : rpartition '@' ((username ++ ':' :: password) ++ '@' :: (host ++ ':' :: port)) =
      some (username ++ ':' :: password, host ++ ':' :: port) :=
    rpartition_append _ (by simp [hhost', hport])
  simp only [parse, htext, hcut, huserinfo, splitHostport_append hhost]

theorem parse_username {username host port : List Char} (husername : ':' ∉ username)
    (hhost : ':' ∉ host) (hhost' : '@' ∉ host) (hport : '@' ∉ port) :
    parse (username ++ '@' :: (host ++ ':' :: port)) = ⟨some username, none, host, some port⟩ := by
  have huserinfo : splitUserinfo username = (some username, none) := by
    rw [splitUserinfo, partition_of_notMem husername]
  have hcut : rpartition '@' (username ++ '@' :: (host ++ ':' :: port)) =
      some (username, host ++ ':' :: port) :=
    rpartition_append _ (by simp [hhost', hport])
  simp only [parse, hcut, huserinfo, splitHostport_append hhost]

theorem parse_server {host port : List Char} (hhost : ':' ∉ host) (hhost' : '@' ∉ host)
    (hport : '@' ∉ port) : parse (host ++ ':' :: port) = ⟨none, none, host, some port⟩ := by
  rw [parse, rpartition_of_notMem (by simp [hhost', hport]), splitHostport_append hhost]

end Authority

def Bare (text : List Char) : Prop := ∀ c ∈ text, c = '%' ∨ Percent.unreserved c = true

theorem bare_quote (text : List Char) : Bare (Percent.quote text) := fun _ => Percent.mem_quote

theorem Bare.notMem {text : List Char} (h : Bare text) {c : Char} (hpercent : c ≠ '%')
    (hreserved : Percent.unreserved c = false) : c ∉ text := by
  intro hc
  obtain rfl | hunreserved := h c hc
  · exact hpercent rfl
  · simp [hreserved] at hunreserved

/-- Neither the authority nor the URL before its fragment ends in the text. -/
def Inside (text : List Char) : Prop := ∀ c ∈ text, Url.endsAuthority c = false ∧ c ≠ '#'

instance (text : List Char) : Decidable (Inside text) := List.decidableBAll _ text

theorem Bare.inside {text : List Char} (h : Bare text) : Inside text := by
  intro c hc
  have hne {d : Char} (hpercent : d ≠ '%') (hreserved : Percent.unreserved d = false) : c ≠ d :=
    fun heq => h.notMem hpercent hreserved (heq ▸ hc)
  refine ⟨?_, hne (by decide) (by decide)⟩
  have hslash : c ≠ '/' := hne (by decide) (by decide)
  have hquestion : c ≠ '?' := hne (by decide) (by decide)
  simp [Url.endsAuthority, hslash, hquestion]

theorem Inside.append {front back : List Char} (h : Inside front) (hback : Inside back) :
    Inside (front ++ back) :=
  fun c hc => (List.mem_append.mp hc).elim (h c) (hback c)

theorem Inside.cons {c : Char} {text : List Char} (hc : Url.endsAuthority c = false ∧ c ≠ '#')
    (h : Inside text) : Inside (c :: text) :=
  List.forall_mem_cons.mpr ⟨hc, h⟩

/-- With either parser, path and query do not depend on what stands before them, and a
rest without delimiters is the path. -/
theorem Url.parse_inside {parser : List Char → Option Url}
    (hparser : parser ∈ [parse, parseReference]) (rest : List Char) : ∃ path query,
      ('?' ∉ rest → '#' ∉ rest → path = '/' :: rest) ∧
      ∀ scheme authority, Inside authority → ':' ∉ scheme → '#' ∉ scheme →
        parser (scheme ++ ':' :: '/' :: '/' :: (authority ++ '/' :: rest)) =
          some ⟨scheme, authority, path, query⟩ := by
  have hwhole {c : Char} {text : List Char} (h : c ∉ text) : text.takeWhile (· ≠ c) = text :=
    List.takeWhile_eq_self_iff.mpr fun d hd => decide_eq_true fun heq => h (heq ▸ hd)
  rw [List.mem_cons, List.mem_singleton] at hparser
  obtain rfl | rfl := hparser
  · refine ⟨'/' :: rest.takeWhile (· ≠ '?'), (rest.dropWhile (· ≠ '?')).drop 1, ?_, ?_⟩
    · intro hquestion _
      rw [hwhole hquestion]
    · intro scheme authority hauthority hscheme _
      exact parse_authority hscheme (fun c hc => (hauthority c hc).1) rest
  · refine ⟨'/' :: (rest.takeWhile (· ≠ '#')).takeWhile (· ≠ '?'),
      ((rest.takeWhile (· ≠ '#')).dropWhile (· ≠ '?')).drop 1, ?_, ?_⟩
    · intro hquestion hhash
      rw [hwhole hhash, hwhole hquestion]
    · intro scheme authority hauthority hscheme hscheme'
      rw [parseReference_authority hscheme' fun h => (hauthority _ h).2 rfl]
      exact parse_authority hscheme (fun c hc => (hauthority c hc).1) _

/-- A DNS name or an IPv4 address. -/
def PlainHost (host : List Char) : Prop :=
  ∀ c ∈ host, c.isAlphanum = true ∨ c = '-' ∨ c = '.' ∨ c = '_'

instance (host : List Char) : Decidable (PlainHost host) := List.decidableBAll _ host

theorem PlainHost.bare {host : List Char} (h : PlainHost host) : Bare host := by
  intro c hc
  right
  obtain halphanum | rfl | rfl | rfl := h c hc
  · simp [Percent.unreserved, halphanum]
  · decide
  · decide
  · decide

def decimal (text : List Char) : Option ℕ :=
  if text ≠ [] ∧ text.all Char.isDigit = true then some (Nat.ofDigitChars 10 text 0) else none

theorem toString_ofNat_toList (n : ℕ) : (toString (n : Int)).toList = Nat.toDigits 10 n := by
  have hrepr : toString (n : Int) = Nat.repr n := rfl
  rw [hrepr, Nat.repr, String.toList_ofList]

theorem bare_toDigits (n : ℕ) : Bare (Nat.toDigits 10 n) := by
  intro c hc
  have hdigit := Nat.isDigit_of_mem_toDigits (by decide) (by decide) hc
  right
  simp [Percent.unreserved, Char.isAlphanum, hdigit]

theorem bare_toString (n : Int) : Bare (toString n).toList := by
  cases n with
  | ofNat n => exact toString_ofNat_toList n ▸ bare_toDigits n
  | negSucc n =>
    have hrepr : toString (Int.negSucc n) = "-" ++ Nat.repr (n + 1) := rfl
    rw [hrepr, String.toList_append, Nat.repr, String.toList_ofList, String.toList_ofList]
    exact List.forall_mem_cons.mpr ⟨.inr (by decide), bare_toDigits (n + 1)⟩

theorem decimal_toDigits (n : ℕ) : decimal (Nat.toDigits 10 n) = some n := by
  have hdigits : (Nat.toDigits 10 n).all Char.isDigit = true :=
    List.all_eq_true.mpr fun c hc => Nat.isDigit_of_mem_toDigits (by decide) (by decide) hc
  rw [decimal, if_pos ⟨Nat.toDigits_ne_nil, hdigits⟩, Nat.ofDigitChars_ten_toDigits]

namespace PlainHost

variable {host : List Char}

theorem server_inside (h : PlainHost host) (port : Int) :
    Inside (host ++ ':' :: (toString port).toList) := by
  apply h.bare.inside.append
  exact (bare_toString port).inside.cons (by decide)

theorem parse_server (h : PlainHost host) (port : Int) :
    Authority.parse (host ++ ':' :: (toString port).toList) =
      ⟨none, none, host, some (toString port).toList⟩ := by
  apply Authority.parse_server
  · exact h.bare.notMem (by decide) (by decide)
  · exact h.bare.notMem (by decide) (by decide)
  · exact (bare_toString port).notMem (by decide) (by decide)

theorem parse_username (h : PlainHost host) {username : List Char} (husername : ':' ∉ username)
    (port : Int) : Authority.parse (username ++ '@' :: (host ++ ':' :: (toString port).toList)) =
      ⟨some username, none, host, some (toString port).toList⟩ := by
  apply Authority.parse_username husername
  · exact h.bare.notMem (by decide) (by decide)
  · exact h.bare.notMem (by decide) (by decide)
  · exact (bare_toString port).notMem (by decide) (by decide)

theorem parse_credentials (h : PlainHost host) {username : List Char} (password : List Char)
    (husername : ':' ∉ username) (port : Int) :
    Authority.parse (username ++ ':' :: (password ++ '@' ::
      (host ++ ':' :: (toString port).toList))) =
      ⟨some username, some password, host, some (toString port).toList⟩ := by
  apply Authority.parse_credentials _ husername
  · exact h.bare.notMem (by decide) (by decide)
  · exact h.bare.notMem (by decide) (by decide)
  · exact (bare_toString port).notMem (by decide) (by decide)

end PlainHost

end Text
