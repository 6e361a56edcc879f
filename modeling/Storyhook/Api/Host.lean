import Mathlib.Data.List.DropRight
import Storyhook.Daemon.Framing

/-! Which `Host` values the guard of the write routes takes. -/

namespace Storyhook.Api

open Storyhook.Library Storyhook.Daemon

def headerValue (headers : List Header) (name : String) : Option String :=
  (headers.find? (·.is name)).map (·.value)

def hostWithoutPort (host : List Char) : List Char :=
  match host with
  | '[' :: rest => rest.takeWhile (· != ']')
  | _ =>
      match Text.rsplitOnce ':' host with
      | some (before, _) => before
      | none => host

def normalizedHost (host : List Char) : List Char :=
  Text.toAsciiLowercase ((hostWithoutPort host).rdropWhile (· == '.'))

def loopbackHosts : List (List Char) := ["127.0.0.1".toList, "localhost".toList, "::1".toList]

def hostIsLoopback (host : List Char) : Bool := loopbackHosts.contains (normalizedHost host)

structure TrustedHosts where
  bound : List String
  proxy : List String

def TrustedHosts.allows (trusted : TrustedHosts) (hostOnly : List Char) : Bool :=
  trusted.bound.any (fun h => h.toList == hostOnly) ||
    trusted.proxy.any (fun h => h.toList == hostOnly)

def hostIsTrusted (host : List Char) (trusted : TrustedHosts) : Bool :=
  let hostOnly := normalizedHost host
  loopbackHosts.contains hostOnly || trusted.allows hostOnly

def mutationGuardOk (headers : List Header) (trusted : TrustedHosts) : Bool :=
  if (headerValue headers "X-Storyhook").isNone then false
  else match headerValue headers "Host" with
    | some host => hostIsTrusted host.toList trusted
    | none => false

def TrustedHosts.behindAProxy (trusted : TrustedHosts) : Bool := !trusted.proxy.isEmpty

def forwardingHeaders : List String :=
  ["X-Forwarded-For", "X-Forwarded-Host", "X-Forwarded-Proto", "Forwarded", "X-Real-IP"]

def localRequest (headers : List Header) (trusted : TrustedHosts) (loopback : Bool) : Bool :=
  loopback && !trusted.behindAProxy &&
    !headers.any (fun header => forwardingHeaders.any (header.is ·)) &&
    (headerValue headers "Host").any (hostIsLoopback ·.toList)

/-! ### Hosts as they are meant to be written -/

def IsPort (text : List Char) : Prop :=
  ∃ digits, text = ':' :: digits ∧ digits ≠ [] ∧ ∀ c ∈ digits, c.isDigit = true

def Trailer (text : List Char) : Prop :=
  ∃ dot port, text = dot ++ port ∧ (dot = [] ∨ dot = ['.']) ∧ (port = [] ∨ IsPort port)

def hostForm (name : List Char) : List Char :=
  if ':' ∈ name then '[' :: (name ++ [']']) else name

/-- The value is the named host, in any case. -/
def Names (name host : List Char) : Prop :=
  ∃ core trailer, host = core ++ trailer ∧
    Text.toAsciiLowercase core = Text.toAsciiLowercase (hostForm name) ∧ Trailer trailer

/-- Every host that may change something: the loopback ones and those listed. -/
def TrustedHosts.names (trusted : TrustedHosts) : List (List Char) :=
  loopbackHosts ++ (trusted.bound ++ trusted.proxy).map (·.toList)

/-- Only a value that names a loopback host is taken for one. -/
def LoopbackNamed (host : List Char) : Prop :=
  hostIsLoopback host = true → ∃ name ∈ loopbackHosts, Names name host

/-- Only requests whose first `Host` names a trusted host pass. -/
def GuardNamed (headers : List Header) (trusted : TrustedHosts) : Prop :=
  mutationGuardOk headers trusted = true →
    ∃ host, (valuesOf "Host" headers).head? = some host ∧ ∃ name ∈ trusted.names, Names name host

/-! ### Other spellings -/

/-- The literal is what stands in the opening bracket, as far as the closing one if there is any. -/
def Bracketed (host literal tail : List Char) : Prop :=
  host = '[' :: (literal ++ tail) ∧ ']' ∉ literal ∧ (tail = [] ∨ tail.head? = some ']')

/-- The literal is what stands before the last colon, if there is any. -/
def Bare (host literal tail : List Char) : Prop :=
  host = literal ++ tail ∧ host.head? ≠ some '[' ∧
    (tail = [] ∧ ':' ∉ literal ∨ ∃ port, tail = ':' :: port ∧ ':' ∉ port)

def Dotted (name literal : List Char) (dots : Nat) : Prop :=
  ∃ core, literal = core ++ List.replicate dots '.' ∧ core.getLast? ≠ some '.' ∧
    Text.toAsciiLowercase core = name

/-- A value with the name in it that is not how the name is written. -/
inductive OddSpelling (name host : List Char) : Prop
  | bare (literal tail : List Char) (dots : Nat) (cut : Bare host literal tail)
      (named : Dotted name literal dots)
      (odd : ':' ∈ name ∨ 1 < dots ∨ tail ≠ [] ∧ ¬IsPort tail)
  | bracketed (literal tail : List Char) (dots : Nat) (cut : Bracketed host literal tail)
      (named : Dotted name literal dots)
      (odd : ':' ∉ name ∨ 0 < dots ∨ tail = [] ∨ ¬Trailer tail.tail)

/-! ### The check of a value -/

theorem hostWithoutPort_bracketed (host literal tail : List Char)
    (cut : Bracketed host literal tail) : hostWithoutPort host = literal := by
  obtain ⟨rfl, inner, ended⟩ := cut
  have kept : ∀ c ∈ literal, (c != ']') = true := by
    intro c member
    rw [bne_iff_ne]
    rintro rfl
    exact inner member
  show (literal ++ tail).takeWhile (· != ']') = literal
  rw [List.takeWhile_append_of_pos kept]
  rcases ended with rfl | closing
  · simp
  · obtain ⟨rest, rfl⟩ := List.head?_eq_some_iff.mp closing
    simp

theorem hostWithoutPort_bare (host literal tail : List Char) (cut : Bare host literal tail) :
    hostWithoutPort host = literal := by
  obtain ⟨split, start, ended⟩ := cut
  unfold hostWithoutPort
  split
  · exact absurd rfl start
  · rcases ended with ⟨rfl, none⟩ | ⟨port, rfl, last⟩
    · rw [List.append_nil] at split
      subst split
      rw [(Text.rsplitOnce_eq_none ':' host).mpr none]
    · rw [(Text.rsplitOnce_eq_some ':' host literal port).mpr ⟨split, last⟩]

theorem exists_cut (host : List Char) :
    ∃ literal tail, Bracketed host literal tail ∨ Bare host literal tail := by
  by_cases start : host.head? = some '['
  · obtain ⟨rest, rfl⟩ := List.head?_eq_some_iff.mp start
    refine ⟨rest.takeWhile (· != ']'), rest.dropWhile (· != ']'), Or.inl ⟨?_, ?_, ?_⟩⟩
    · rw [List.takeWhile_append_dropWhile]
    · intro member
      have kept := List.all_eq_true.mp List.all_takeWhile _ member
      simp at kept
    · cases dropped : rest.dropWhile (· != ']') with
      | nil => exact Or.inl rfl
      | cons first others =>
          have stopped := List.head?_dropWhile_not (· != ']') rest
          rw [dropped] at stopped
          right
          simpa using stopped
  · cases found : Text.rsplitOnce ':' host with
    | none =>
        have absent := (Text.rsplitOnce_eq_none ':' host).mp found
        exact ⟨host, [], Or.inr ⟨(List.append_nil host).symm, start, Or.inl ⟨rfl, absent⟩⟩⟩
    | some parts =>
        obtain ⟨split, last⟩ := (Text.rsplitOnce_eq_some ':' host parts.1 parts.2).mp found
        exact ⟨parts.1, ':' :: parts.2, Or.inr ⟨split, start, Or.inr ⟨parts.2, rfl, last⟩⟩⟩

theorem Dotted.trimmed (name literal : List Char) (dots : Nat) (named : Dotted name literal dots) :
    Text.toAsciiLowercase (literal.rdropWhile (· == '.')) = name ∧
      literal.length = name.length + dots := by
  obtain ⟨core, rfl, ended, rfl⟩ := named
  constructor
  · congr 1
    induction dots with
    | zero =>
        rw [List.replicate_zero, List.append_nil]
        refine List.rdropWhile_eq_self_iff.mpr fun filled dot => ended ?_
        rw [List.getLast?_eq_some_getLast filled, eq_of_beq dot]
    | succ dots further =>
        rw [List.replicate_succ', ← List.append_assoc,
          List.rdropWhile_concat_pos _ _ _ rfl, further]
  · simp [Text.toAsciiLowercase]

theorem exists_dotted (literal : List Char) :
    ∃ dots, Dotted (Text.toAsciiLowercase (literal.rdropWhile (· == '.'))) literal dots := by
  have dots : ∀ c ∈ literal.rtakeWhile (· == '.'), c = '.' := by
    intro c member
    have dot : (c == '.') = true := List.mem_rtakeWhile_imp (p := (· == '.')) member
    exact eq_of_beq dot
  refine ⟨(literal.rtakeWhile (· == '.')).length, literal.rdropWhile (· == '.'), ?_, ?_, rfl⟩
  · rw [← List.eq_replicate_of_mem dots, List.rdropWhile_append_rtakeWhile]
  · intro ended
    have filled : literal.rdropWhile (· == '.') ≠ [] := by
      intro none
      rw [none] at ended
      cases ended
    rw [List.getLast?_eq_some_getLast filled, Option.some.injEq] at ended
    exact List.rdropWhile_last_not (· == '.') literal filled (beq_iff_eq.mpr ended)

theorem OddSpelling.normalized (name host : List Char) (odd : OddSpelling name host) :
    normalizedHost host = name := by
  cases odd with
  | bare literal tail dots cut named =>
      rw [normalizedHost, hostWithoutPort_bare host literal tail cut]
      exact named.trimmed.1
  | bracketed literal tail dots cut named =>
      rw [normalizedHost, hostWithoutPort_bracketed host literal tail cut]
      exact named.trimmed.1

theorem toAsciiLowercase_idem (text : List Char) :
    Text.toAsciiLowercase (Text.toAsciiLowercase text) = Text.toAsciiLowercase text := by
  simp only [Text.toAsciiLowercase, List.map_map, Function.comp_def, Text.toLower_toLower]

theorem dot_of_few (dots : Nat) (few : dots ≤ 1) :
    List.replicate dots '.' = [] ∨ List.replicate dots '.' = ['.'] := by
  rcases Nat.le_one_iff_eq_zero_or_eq_one.mp few with rfl | rfl
  · exact Or.inl rfl
  · exact Or.inr rfl

theorem names_or_odd (host : List Char) :
    Names (normalizedHost host) host ∨ OddSpelling (normalizedHost host) host := by
  obtain ⟨literal, tail, cut⟩ := exists_cut host
  obtain ⟨dots, named⟩ := exists_dotted literal
  have read : hostWithoutPort host = literal := by
    rcases cut with bracketed | bare
    · exact hostWithoutPort_bracketed host literal tail bracketed
    · exact hostWithoutPort_bare host literal tail bare
  rw [normalizedHost, read]
  obtain ⟨core, spelled, -, lowered⟩ := id named
  rw [← lowered] at named ⊢
  rcases cut with bracketed | bare
  · by_cases odd : ':' ∉ Text.toAsciiLowercase core ∨ 0 < dots ∨ tail = [] ∨ ¬Trailer tail.tail
    · exact Or.inr (.bracketed literal tail dots bracketed named odd)
    · simp only [not_or, not_not, Nat.not_lt, Nat.le_zero] at odd
      obtain ⟨colon, rfl, filled, trailer⟩ := odd
      obtain ⟨rfl, -, ended⟩ := bracketed
      obtain ⟨rest, rfl⟩ := List.head?_eq_some_iff.mp (ended.resolve_left filled)
      refine Or.inl ⟨'[' :: (core ++ [']']), rest, ?_, ?_, trailer⟩
      · simp [spelled]
      · rw [hostForm, if_pos colon]
        simp only [Text.toAsciiLowercase, List.map_append, List.map_cons, List.map_nil,
          List.map_map,
          Function.comp_def, Text.toLower_toLower]
  · by_cases odd : ':' ∈ Text.toAsciiLowercase core ∨ 1 < dots ∨ tail ≠ [] ∧ ¬IsPort tail
    · exact Or.inr (.bare literal tail dots bare named odd)
    · simp only [not_or, not_and, not_not, Nat.not_lt] at odd
      obtain ⟨plain, few, port⟩ := odd
      refine Or.inl ⟨core, List.replicate dots '.' ++ tail, ?_, ?_, _, tail, rfl,
        dot_of_few dots few, ?_⟩
      · rw [bare.1, spelled, List.append_assoc]
      · rw [hostForm, if_neg plain, toAsciiLowercase_idem]
      · by_cases filled : tail = []
        · exact Or.inl filled
        · exact Or.inr (port filled)

theorem Names.cut (name host : List Char) (loopback : name ∈ loopbackHosts)
    (names : Names name host) : ∃ literal tail dots, Dotted name literal dots ∧
      (Bracketed host literal tail ∧ ':' ∈ name ∧ dots = 0 ∧ tail ≠ [] ∧ Trailer tail.tail ∨
        Bare host literal tail ∧ ':' ∉ name ∧ dots ≤ 1 ∧ (tail = [] ∨ IsPort tail)) := by
  have plain : ∀ name ∈ loopbackHosts, Text.toAsciiLowercase name = name ∧
      name.getLast? ≠ some '.' ∧ name ≠ [] ∧ name.head? ≠ some '[' ∧ ']' ∉ name := by
    decide +kernel
  obtain ⟨lowered, ended, filled, start, inner⟩ := plain name loopback
  obtain ⟨core, trailer, rfl, same, follows⟩ := names
  rw [hostForm] at same
  split at same
  · next colon =>
      have around : Text.toAsciiLowercase ('[' :: (name ++ [']'])) = '[' :: (name ++ [']']) := by
        simpa [Text.toAsciiLowercase] using lowered
      rw [around, Text.toAsciiLowercase] at same
      obtain ⟨opening, rest, rfl, first, after⟩ := List.map_eq_cons_iff.mp same
      obtain ⟨literal, ending, rfl, spelled, closed⟩ := List.map_eq_append_iff.mp after
      obtain ⟨closing, rfl, last⟩ := List.map_eq_singleton_iff.mp closed
      rw [Text.toLower_eq_iff _ _ (by decide) (by decide)] at first last
      subst first last
      refine ⟨literal, ']' :: trailer, 0, ⟨literal, by simp, ?_, spelled⟩,
        Or.inl ⟨⟨?_, ?_, Or.inr rfl⟩,
        colon, rfl, List.cons_ne_nil _ _, follows⟩⟩
      · intro dot
        refine ended ?_
        rw [← spelled, List.getLast?_map, dot]
        rfl
      · simp
      · rwa [← Text.mem_toAsciiLowercase ']' _ (by decide) (by decide), Text.toAsciiLowercase,
          spelled]
  · next colon =>
      rw [lowered] at same
      obtain ⟨dot, port, rfl, dots, ports⟩ := follows
      have short : ∃ count ≤ 1, dot = List.replicate count '.' := by
        rcases dots with rfl | rfl
        · exact ⟨0, Nat.zero_le _, rfl⟩
        · exact ⟨1, Nat.le_refl _, rfl⟩
      obtain ⟨count, few, rfl⟩ := short
      refine ⟨core ++ List.replicate count '.', port, count, ⟨core, rfl, ?_, same⟩,
        Or.inr ⟨⟨(List.append_assoc _ _ _).symm, ?_, ?_⟩, colon, few, ports⟩⟩
      · intro dot
        refine ended ?_
        rw [← same, Text.toAsciiLowercase, List.getLast?_map, dot]
        rfl
      · cases core with
        | nil => exact absurd same.symm filled
        | cons first rest =>
            rintro ⟨⟩
            exact start (same ▸ rfl)
      · have none : ':' ∉ core := by
          rwa [← Text.mem_toAsciiLowercase ':' _ (by decide) (by decide), same]
        rcases ports with rfl | ⟨digits, rfl, -, decimal⟩
        · refine Or.inl ⟨rfl, ?_⟩
          rw [List.mem_append, not_or]
          exact ⟨none, fun member => by cases List.eq_of_mem_replicate member⟩
        · refine Or.inr ⟨digits, rfl, fun member => ?_⟩
          exact absurd (decimal ':' member) (by decide)

theorem names_not_odd (name host : List Char) (loopback : name ∈ loopbackHosts)
    (names : Names name host) : ¬OddSpelling name host := by
  obtain ⟨literal, tail, dots, named, good⟩ := names.cut name host loopback
  intro odd
  cases odd with
  | bare other rest count cut again odd =>
      rcases good with ⟨bracketed, -⟩ | ⟨bare, plain, few, port⟩
      · exact cut.2.1 (bracketed.1 ▸ rfl)
      · obtain rfl : literal = other :=
          (hostWithoutPort_bare _ _ _ bare).symm.trans (hostWithoutPort_bare _ _ _ cut)
        obtain rfl : tail = rest := List.append_cancel_left (bare.1.symm.trans cut.1)
        have once := named.trimmed.2
        have twice := again.trimmed.2
        rcases odd with colon | many | ⟨filled, other⟩
        · exact plain colon
        · omega
        · exact other (port.resolve_left filled)
  | bracketed other rest count cut again odd =>
      rcases good with ⟨bracketed, colon, rfl, filled, trailer⟩ | ⟨bare, -⟩
      · obtain rfl : literal = other :=
          (hostWithoutPort_bracketed _ _ _ bracketed).symm.trans
            (hostWithoutPort_bracketed _ _ _ cut)
        obtain rfl : tail = rest :=
          List.append_cancel_left (List.tail_eq_of_cons_eq (bracketed.1.symm.trans cut.1))
        have once := named.trimmed.2
        have twice := again.trimmed.2
        rcases odd with plain | dotted | none | other
        · exact plain colon
        · omega
        · exact filled none
        · exact other trailer
      · exact bare.2.1 (cut.1 ▸ rfl)

theorem Names.normalized (name host : List Char) (loopback : name ∈ loopbackHosts)
    (names : Names name host) : normalizedHost host = name := by
  obtain ⟨literal, tail, dots, named, good⟩ := names.cut name host loopback
  rcases good with ⟨bracketed, -⟩ | ⟨bare, -⟩
  · rw [normalizedHost, hostWithoutPort_bracketed host literal tail bracketed]
    exact named.trimmed.1
  · rw [normalizedHost, hostWithoutPort_bare host literal tail bare]
    exact named.trimmed.1

theorem OddSpelling.unnamed (name host : List Char) (odd : OddSpelling name host) :
    ∀ other ∈ loopbackHosts, ¬Names other host := by
  intro other loopback names
  have read := names.normalized other host loopback
  rw [odd.normalized name host] at read
  subst read
  exact names_not_odd name host loopback names odd

theorem hostIsLoopback_iff (host : List Char) :
    hostIsLoopback host = true ↔ normalizedHost host ∈ loopbackHosts := by
  rw [hostIsLoopback, List.contains_iff_mem]

theorem hostIsTrusted_iff (host : List Char) (trusted : TrustedHosts) :
    hostIsTrusted host trusted = true ↔ normalizedHost host ∈ trusted.names := by
  simp [hostIsTrusted, TrustedHosts.allows, TrustedHosts.names]

theorem headerValue_eq (headers : List Header) (name : String) :
    (headerValue headers name).map (·.toList) = (valuesOf name headers).head? := by
  rw [headerValue, valuesOf, List.head?_map, List.head?_filter, Option.map_map]
  rfl

theorem mutationGuardOk_iff (headers : List Header) (trusted : TrustedHosts) :
    mutationGuardOk headers trusted = true ↔ valuesOf "X-Storyhook" headers ≠ [] ∧
      ∃ host, (valuesOf "Host" headers).head? = some host ∧ normalizedHost host ∈ trusted.names := by
  have marked := headerValue_eq headers "X-Storyhook"
  rw [mutationGuardOk, ← headerValue_eq]
  cases present : headerValue headers "X-Storyhook" with
  | none =>
      rw [present] at marked
      simp [List.head?_eq_none_iff.mp marked.symm]
  | some value =>
      rw [present] at marked
      have filled : valuesOf "X-Storyhook" headers ≠ [] := by
        intro none
        rw [none] at marked
        cases marked
      cases headerValue headers "Host" with
      | none => simp
      | some host => simp [hostIsTrusted_iff, filled]

/-- A value is taken for a host it does not name only where it is an odd spelling of one. -/
theorem host_named_iff (host : List Char) (headers : List Header) (trusted : TrustedHosts) :
    (LoopbackNamed host ↔ ∀ name ∈ loopbackHosts, ¬OddSpelling name host) ∧
      (GuardNamed headers trusted ↔
        (valuesOf "X-Storyhook" headers ≠ [] →
          ∀ host ∈ (valuesOf "Host" headers).head?, ∀ name ∈ trusted.names,
            OddSpelling name host → ∃ other ∈ trusted.names, Names other host)) := by
  constructor
  · rw [LoopbackNamed, hostIsLoopback_iff]
    constructor
    · intro holds name loopback odd
      obtain ⟨other, listed, names⟩ := holds (odd.normalized name host ▸ loopback)
      exact odd.unnamed name host other listed names
    · intro plain loopback
      exact ⟨_, loopback, (names_or_odd host).resolve_right (plain _ loopback)⟩
  · rw [GuardNamed, mutationGuardOk_iff]
    constructor
    · intro holds marked host first name listed odd
      obtain ⟨value, same, named⟩ :=
        holds ⟨marked, host, first, odd.normalized name host ▸ listed⟩
      cases first.symm.trans same
      exact named
    · rintro plain ⟨marked, host, first, listed⟩
      refine ⟨host, first, ?_⟩
      rcases names_or_odd host with names | odd
      · exact ⟨_, listed, names⟩
      · exact plain marked host first _ listed odd

/-- What follows a closed bracket is not looked at, nor whether the bracket is closed. -/
theorem host_odd :
    ¬LoopbackNamed "[localhost".toList ∧
      ¬GuardNamed [⟨"X-Storyhook", "1"⟩, ⟨"Host", "[::1].attacker.example:80"⟩] ⟨[], []⟩ := by
  constructor
  · intro named
    have cut : Bracketed "[localhost".toList "localhost".toList [] :=
      ⟨rfl, by decide, Or.inl rfl⟩
    have odd : OddSpelling "localhost".toList "[localhost".toList :=
      .bracketed _ [] 0 cut ⟨"localhost".toList, rfl, by decide, by decide⟩
        (Or.inr (Or.inr (Or.inl rfl)))
    obtain ⟨other, listed, names⟩ := named (by decide +kernel)
    exact odd.unnamed _ _ other listed names
  · intro named
    obtain ⟨host, first, other, listed, names⟩ := named (by decide +kernel)
    have trailing : "[::1].attacker.example:80".toList = host := by
      have read : (valuesOf "Host" [⟨"X-Storyhook", "1"⟩,
          ⟨"Host", "[::1].attacker.example:80"⟩]).head? = some "[::1].attacker.example:80".toList := by
        decide +kernel
      exact Option.some.inj (read.symm.trans first)
    subst trailing
    have cut : Bracketed "[::1].attacker.example:80".toList "::1".toList
        "].attacker.example:80".toList := ⟨by decide, by decide, Or.inr rfl⟩
    have odd : OddSpelling "::1".toList "[::1].attacker.example:80".toList := by
      refine .bracketed _ _ 0 cut ⟨"::1".toList, rfl, by decide, by decide⟩
        (Or.inr (Or.inr (Or.inr ?_)))
      rintro ⟨dot, port, split, rfl | rfl, rfl | ⟨digits, rfl, -⟩⟩ <;> cases split
    exact odd.unnamed _ _ other (by simpa [TrustedHosts.names] using listed) names

end Storyhook.Api
