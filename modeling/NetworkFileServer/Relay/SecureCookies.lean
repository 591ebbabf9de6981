import Mathlib.Data.List.DropRight
import Mathlib.Data.List.Forall2
import Mathlib.Data.List.Infix
import NetworkFileServer.Tunnel.Frames

/-!
# Secure cookies

`relay/app/middleware/secure_cookies.py`: behind HTTPS the middleware adds the attribute `Secure` to the cookies
of a response. Whether a cookie has it is decided on the text of the header.
-/

namespace NetworkFileServer.Relay

open Tunnel (Bytes)

/-- A literal of ASCII characters. -/
def ascii (s : String) : Bytes := s.toList.map fun c => UInt8.ofNat c.toNat

def lowerByte (b : UInt8) : UInt8 := if 65 ≤ b ∧ b ≤ 90 then b + 32 else b

/-- `bytes.lower`. -/
def lowerBytes (bs : Bytes) : Bytes := bs.map lowerByte

abbrev RawHeader := Bytes × Bytes

structure Scope where
  type : String
  headers : List RawHeader

inductive Message where
  | responseStart (status : Nat) (headers : List RawHeader)
  | responseBody (body : Bytes) (moreBody : Bool)
deriving DecidableEq

def isForwardedHttps (scope : Scope) : Bool :=
  scope.headers.any fun (key, value) =>
    lowerBytes key = ascii "x-forwarded-proto" && lowerBytes value = ascii "https"

/-- `key.lower() == b"set-cookie"`. -/
def isSetCookie (key : Bytes) : Bool := lowerBytes key = ascii "set-cookie"

/-- `b"secure" in value.lower()`. -/
def mentionsSecure (value : Bytes) : Bool := ascii "secure" <:+: lowerBytes value

/-- The loop body of `send_wrapper`. -/
def stampHeader (header : RawHeader) : RawHeader :=
  if isSetCookie header.1 && !mentionsSecure header.2 then (header.1, header.2 ++ ascii "; Secure") else header

def sendWrapper : Message → Message
  | .responseStart status headers => .responseStart status (headers.map stampHeader)
  | .responseBody body moreBody => .responseBody body moreBody

/-- What the middleware sends for a message of the application. -/
def secureCookieMiddleware (scope : Scope) (message : Message) : Message :=
  if scope.type ≠ "http" then message
  else if !isForwardedHttps scope then message
  else sendWrapper message

def semicolon : UInt8 := 59

def equalsSign : UInt8 := 61

def isBlank (b : UInt8) : Bool := b = 32 || b = 9

/-- What follows the pair of name and value, cut at the semicolons. -/
def attributes (value : Bytes) : List Bytes := (value.splitOn semicolon).tail

/-- The name of an attribute, before its `=` if it has one, without blanks around it. -/
def attributeName (attr : Bytes) : Bytes :=
  ((attr.takeWhile (· ≠ equalsSign)).dropWhile isBlank).rdropWhile isBlank

def isSecureAttribute (attr : Bytes) : Bool := lowerBytes (attributeName attr) = ascii "secure"

def secureCount (value : Bytes) : Nat := (attributes value).countP isSecureAttribute

/-- A header as it is to be sent: a cookie has the attribute once, and keeps what it had. -/
def Marked (header sent : RawHeader) : Prop :=
  if isSetCookie header.1 then
    sent.1 = header.1 ∧ header.2 <+: sent.2 ∧ secureCount sent.2 = 1 ∧
      (secureCount header.2 = 1 → sent.2 = header.2)
  else sent = header

/-- The headers that are sent for a response. -/
def MarksCookies (scope : Scope) (headers sent : List RawHeader) : Prop :=
  if scope.type = "http" ∧ isForwardedHttps scope = true then List.Forall₂ Marked headers sent
  else sent = headers

/-- A cookie that has the text of the attribute anywhere has the attribute, once. -/
def NamesItOnce (header : RawHeader) : Bool :=
  !isSetCookie header.1 || !mentionsSecure header.2 || secureCount header.2 = 1

theorem infix_of_mem_splitOn (sep : UInt8) (xs part : Bytes) (h : part ∈ xs.splitOn sep) : part <:+: xs := by
  have hflat : part <:+: [sep].intercalate (xs.splitOn sep) := by
    generalize xs.splitOn sep = parts at h ⊢
    induction parts with
    | nil => cases h
    | cons first rest ih =>
        cases rest with
        | nil =>
            rw [List.mem_singleton.mp h]
            simp [List.intercalate]
        | cons second rest =>
            have hsplit : [sep].intercalate (first :: second :: rest) =
                first ++ ([sep] ++ [sep].intercalate (second :: rest)) := by
              simp [List.intercalate]
            rw [hsplit]
            rcases List.mem_cons.mp h with rfl | hmem
            · exact (List.prefix_append _ _).isInfix
            · exact (ih hmem).trans ((List.suffix_append _ _).isInfix.trans (List.suffix_append _ _).isInfix)
  rwa [List.intercalate_splitOn] at hflat

theorem isInfix_attributeName (attr : Bytes) : attributeName attr <:+: attr := by
  unfold attributeName
  exact (List.rdropWhile_prefix _ _).isInfix.trans
    ((List.dropWhile_suffix _).isInfix.trans (List.takeWhile_prefix _).isInfix)

theorem mentionsSecure_of_attribute (value attr : Bytes) (hmem : attr ∈ attributes value)
    (hsecure : isSecureAttribute attr = true) : mentionsSecure value = true := by
  have hvalue : attr <:+: value := infix_of_mem_splitOn semicolon value attr (List.mem_of_mem_tail hmem)
  have hname : ascii "secure" = lowerBytes (attributeName attr) := (of_decide_eq_true hsecure).symm
  unfold mentionsSecure
  rw [hname]
  exact decide_eq_true (((isInfix_attributeName attr).trans hvalue).map lowerByte)

theorem secureCount_eq_zero (value : Bytes) (h : mentionsSecure value = false) : secureCount value = 0 := by
  unfold secureCount
  rw [List.countP_eq_zero]
  intro attr hmem hsecure
  rw [mentionsSecure_of_attribute value attr hmem hsecure] at h
  cases h

theorem attributes_stamp (value : Bytes) : attributes (value ++ ascii "; Secure") =
    attributes value ++ [ascii " Secure"] := by
  have hstamp : ascii "; Secure" = semicolon :: ascii " Secure" := by decide
  have hlast : (ascii " Secure").splitOn semicolon = [ascii " Secure"] := by decide
  unfold attributes
  rw [hstamp, List.splitOn_append_cons_self, hlast, List.tail_append_of_ne_nil (List.splitOn_ne_nil _ _)]

theorem secureCount_stamp (value : Bytes) : secureCount (value ++ ascii "; Secure") = secureCount value + 1 := by
  have hone : isSecureAttribute (ascii " Secure") = true := by decide
  unfold secureCount
  rw [attributes_stamp, List.countP_append, List.countP_singleton, if_pos hone]

theorem marked_stampHeader_iff (header : RawHeader) :
    Marked header (stampHeader header) ↔ NamesItOnce header = true := by
  obtain ⟨key, value⟩ := header
  unfold Marked NamesItOnce stampHeader
  cases hkey : isSetCookie key with
  | false => simp
  | true =>
      cases hmentions : mentionsSecure value with
      | false =>
          have hzero := secureCount_eq_zero value hmentions
          simp [secureCount_stamp, hzero]
      | true => simp

/-- Behind HTTPS every cookie is marked once, and nothing else changes, exactly when the cookies that have the
text of the attribute anywhere have the attribute, once. -/
theorem marksCookies_iff (scope : Scope) (status : Nat) (headers : List RawHeader) :
    (∃ sent, secureCookieMiddleware scope (.responseStart status headers) = .responseStart status sent ∧
        MarksCookies scope headers sent) ↔
      (scope.type = "http" ∧ isForwardedHttps scope = true → ∀ header ∈ headers, NamesItOnce header = true) := by
  unfold secureCookieMiddleware MarksCookies
  by_cases hhttp : scope.type = "http"
  · cases hforwarded : isForwardedHttps scope with
    | false => simp [hhttp]
    | true =>
        simp [hhttp, sendWrapper, List.forall₂_map_right_iff, List.forall₂_same, marked_stampHeader_iff]
  · simp [hhttp]

/-- A request over HTTPS. -/
def httpsScope : Scope := ⟨"http", [(ascii "X-Forwarded-Proto", ascii "https")]⟩

/-- The path of the cookie has the text of the attribute. -/
theorem not_marksCookies_securePath :
    ¬∃ sent, secureCookieMiddleware httpsScope (.responseStart 200
        [(ascii "Set-Cookie", ascii "session=abc123; Path=/secure")]) = .responseStart 200 sent ∧
      MarksCookies httpsScope [(ascii "Set-Cookie", ascii "session=abc123; Path=/secure")] sent := by
  rintro ⟨sent, hsent, hmarks⟩
  have hcookie : NamesItOnce (ascii "Set-Cookie", ascii "session=abc123; Path=/secure") = false := by decide +kernel
  have hhttps : httpsScope.type = "http" ∧ isForwardedHttps httpsScope = true := by decide +kernel
  have hmarked : Marked (ascii "Set-Cookie", ascii "session=abc123; Path=/secure")
      (stampHeader (ascii "Set-Cookie", ascii "session=abc123; Path=/secure")) := by
    simp only [secureCookieMiddleware, hhttps.1, hhttps.2, ne_eq, not_true_eq_false, if_false, Bool.not_true,
      Bool.false_eq_true, sendWrapper, Message.responseStart.injEq, true_and] at hsent
    rw [MarksCookies, if_pos hhttps, ← hsent] at hmarks
    exact (List.forall₂_cons.mp hmarks).1
  rw [(marked_stampHeader_iff _).mp hmarked] at hcookie
  cases hcookie

end NetworkFileServer.Relay
