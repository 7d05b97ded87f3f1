import Mathlib.Logic.Function.Basic
import ActivityRelay.NetUrl.Url

/-!
# Requests

The part of Go's `http.Request` that handlers of signed requests look at. Headers are
looked up by their canonical names, the form in which the server stores them.
-/

namespace HttpMessage

open Function GoString NetUrl

/-- `http.Header`: the values of each canonical name, in order. -/
abbrev Header := GoString → List GoString

/-- `Header.Get`: the first value of a name, empty if there is none. -/
def Header.get (h : Header) (name : GoString) : GoString := (h name).headD []

def Header.set (h : Header) (name value : GoString) : Header := update h name [value]

def Header.add (h : Header) (name value : GoString) : Header :=
  update h name (h name ++ [value])

def Header.del (h : Header) (name : GoString) : Header := update h name []

/-- `validHeaderFieldByte`: the bytes of a token. -/
def validHeaderFieldByte (b : UInt8) : Bool :=
  isAlpha b || isDigit b || (lit "!#$%&'*+-.^_\u0060|~").contains b

/-- The letters at the start and after each hyphen in upper case, the others in lower case. -/
def canonicalCase : (upper : Bool) → GoString → GoString
  | _, [] => []
  | upper, b :: s =>
      let c :=
        if upper && (0x61 ≤ b.toNat && b.toNat ≤ 0x7A) then b - 0x20
        else if !upper && (0x41 ≤ b.toNat && b.toNat ≤ 0x5A) then b + 0x20
        else b
      c :: canonicalCase (c == 0x2D) s

def canonicalMIMEHeaderKey (s : GoString) : GoString :=
  if s.all validHeaderFieldByte then canonicalCase true s else s

example : canonicalMIMEHeaderKey (lit "content-dIGEST") = lit "Content-Digest" := by decide

/-- A request as its handler sees it. There is no body if the request has none, or if it
cannot be read to its end. -/
structure Request where
  method : GoString
  url : Option URL
  host : GoString
  header : Header
  body : Option GoString

@[simp]
theorem Header.get_set (h : Header) (name value : GoString) :
  (h.set name value).get name = value
  := by
  simp [Header.get, Header.set]

@[simp]
theorem Header.set_of_ne (h : Header) {name other : GoString} (value : GoString)
    (hne : other ≠ name) :
  h.set name value other = h other
  := update_of_ne hne _ _

@[simp]
theorem Header.del_self (h : Header) (name : GoString) :
  h.del name name = []
  := update_self _ _ _

@[simp]
theorem Header.del_of_ne (h : Header) {name other : GoString} (hne : other ≠ name) :
  h.del name other = h other
  := update_of_ne hne _ _

@[simp]
theorem Header.set_self (h : Header) (name value : GoString) :
  h.set name value name = [value]
  := update_self _ _ _

/-- What is set over a name that was absent is all there is to delete. -/
theorem Header.del_set (h : Header) {name : GoString} (value : GoString) (hname : h name = []) :
  (h.set name value).del name = h
  := by
  rw [Header.del, Header.set, update_idem, ← hname, update_eq_self]

/-- The request with a header set. -/
def Request.setHeader (request : Request) (name value : GoString) : Request :=
  { request with header := request.header.set name value }

@[simp]
theorem Request.header_setHeader_self (request : Request) (name value : GoString) :
  (request.setHeader name value).header name = [value]
  := update_self _ _ _

theorem Request.header_setHeader_of_ne (request : Request) {name other : GoString} (value : GoString)
    (hne : other ≠ name) :
  (request.setHeader name value).header other = request.header other
  := Header.set_of_ne _ _ hne

end HttpMessage
