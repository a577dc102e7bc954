import WeaveAuth.ForMathlib.Utf8

/-!
# Requests, responses and their headers

The types of the `http` crate. A header map has, for each name, the values under it in the order in
which they came; that is all there is to it.

## Main results

* `HeaderMap.ext`: two header maps with the same values are the same
* `HeaderMap.getAll_insert`, `getAll_append`: what a map has after a change

## What is left out

The limits of the `http` crate on the number of headers. A header's name is one of those that the
code has a constant for, or any other, in lower case; two that differ are different names.

## Implementation notes

A value is bytes, with the check that every constructor of `HeaderValue` makes as a field, so that
none can be made of other bytes. `toStr` is the text of one that is visible ASCII, with tabs, and
nothing else is ever read as a text.
-/

namespace WeaveAuth

/-- `HeaderName`: one of the standard names that the program uses, or another. -/
inductive HeaderName where
  | accept
  | acceptLanguage
  | authorization
  | cacheControl
  | contentDisposition
  | contentEncoding
  | contentSecurityPolicy
  | contentType
  | cookie
  | etag
  | ifMatch
  | ifModifiedSince
  | ifNoneMatch
  | ifUnmodifiedSince
  | lastModified
  | location
  | origin
  | referer
  | retryAfter
  | setCookie
  | userAgent
  | vary
  | wwwAuthenticate
  | xContentTypeOptions
  | custom (name : String)
  deriving DecidableEq

/-- `Method`. -/
inductive Method where
  | options
  | get
  | post
  | put
  | delete
  | head
  | trace
  | connect
  | patch
  | extension (name : String)
  deriving DecidableEq

/-! ### Values -/

/-- A byte that a header value may contain. -/
def isHeaderByte (b : ℕ) : Bool := b = 0x09 || (0x20 ≤ b && b < 0x100 && b ≠ 0x7F)

/-- `HeaderValue`. -/
structure HeaderValue where
  bytes : List ℕ
  valid : ∀ b ∈ bytes, isHeaderByte b = true
  deriving DecidableEq

/-- `HeaderValue::from_bytes`. -/
def HeaderValue.ofBytes (bytes : List ℕ) : Option HeaderValue :=
  if h : ∀ b ∈ bytes, isHeaderByte b = true then some ⟨bytes, h⟩ else none

/-- `HeaderValue::from_str`. -/
def HeaderValue.ofStr (s : List Char) : Option HeaderValue := ofBytes (Utf8.encode s)

/-- `HeaderValue::to_str`: the text, if it is visible ASCII. -/
def HeaderValue.toStr (value : HeaderValue) : Option (List Char) :=
  if value.bytes.all fun b => b = 0x09 || (0x20 ≤ b && b < 0x7F) then
    some (value.bytes.map Char.ofNat)
  else none

theorem HeaderValue.bytes_ofStr {s : List Char} {value : HeaderValue}
    (h : HeaderValue.ofStr s = some value) : value.bytes = Utf8.encode s := by
  rw [ofStr, ofBytes] at h
  split_ifs at h
  exact (Option.some.inj h) ▸ rfl

/-- Visible ASCII is read back from a header. -/
theorem HeaderValue.toStr_ofStr {s : List Char}
    (hs : ∀ c ∈ s, c = '\t' ∨ 0x20 ≤ c.toNat ∧ c.toNat < 0x7F) :
    ∃ value, HeaderValue.ofStr s = some value ∧ value.toStr = some s := by
  have hascii : ∀ c ∈ s, c.toNat < 0x80 := fun c hc => by
    rcases hs c hc with rfl | hc
    · decide
    · omega
  have hbytes : ∀ b ∈ Utf8.encode s, b = 0x09 ∨ 0x20 ≤ b ∧ b < 0x7F := fun b hb => by
    rw [Utf8.encode_ascii hascii] at hb
    obtain ⟨c, hc, rfl⟩ := List.mem_map.mp hb
    exact (hs c hc).imp_left (congrArg Char.toNat)
  have hvalid : ∀ b ∈ Utf8.encode s, isHeaderByte b = true := fun b hb => by
    have hb := hbytes b hb
    simp only [isHeaderByte, Bool.or_eq_true, Bool.and_eq_true, decide_eq_true_eq]
    omega
  refine ⟨⟨Utf8.encode s, hvalid⟩, dif_pos hvalid, ?_⟩
  have hvisible : ((Utf8.encode s).all fun b => b = 0x09 || (0x20 ≤ b && b < 0x7F)) = true := by
    refine List.all_eq_true.mpr fun b hb => ?_
    simpa using hbytes b hb
  have htext : (Utf8.encode s).map Char.ofNat = s := by
    rw [Utf8.encode_ascii hascii, List.map_map]
    exact List.map_id'' (fun c => Char.ofNat_toNat c) s
  rw [toStr, if_pos hvisible, htext]

/-! ### Maps -/

/-- `HeaderMap`. -/
@[ext] structure HeaderMap where
  /-- `HeaderMap::get_all`. -/
  getAll : HeaderName → List HeaderValue

namespace HeaderMap

instance : EmptyCollection HeaderMap := ⟨⟨fun _ => []⟩⟩

/-- `HeaderMap::get`. -/
def get (headers : HeaderMap) (name : HeaderName) : Option HeaderValue :=
  (headers.getAll name).head?

def containsKey (headers : HeaderMap) (name : HeaderName) : Bool := !(headers.getAll name).isEmpty

/-- `HeaderMap::insert`: the value replaces those there are. -/
def insert (headers : HeaderMap) (name : HeaderName) (value : HeaderValue) : HeaderMap :=
  ⟨fun name' => if name' = name then [value] else headers.getAll name'⟩

/-- `HeaderMap::append`: the value comes after those there are. -/
def append (headers : HeaderMap) (name : HeaderName) (value : HeaderValue) : HeaderMap :=
  ⟨fun name' => if name' = name then headers.getAll name' ++ [value] else headers.getAll name'⟩

theorem getAll_insert (headers : HeaderMap) (name name' : HeaderName) (value : HeaderValue) :
    (headers.insert name value).getAll name' =
      if name' = name then [value] else headers.getAll name' := rfl

theorem getAll_append (headers : HeaderMap) (name name' : HeaderName) (value : HeaderValue) :
    (headers.append name value).getAll name' =
      headers.getAll name' ++ if name' = name then [value] else [] := by
  simp only [append]
  split_ifs <;> simp

theorem getAll_foldl_append (headers : HeaderMap) (name name' : HeaderName)
    (values : List HeaderValue) :
    (values.foldl (fun headers value => headers.append name value) headers).getAll name' =
      headers.getAll name' ++ if name' = name then values else [] := by
  induction values generalizing headers with
  | nil => simp
  | cons value values ih =>
    rw [List.foldl_cons, ih, getAll_append, List.append_assoc]
    split_ifs <;> simp

theorem containsKey_eq_false {headers : HeaderMap} {name : HeaderName} :
    headers.containsKey name = false ↔ headers.getAll name = [] := by
  simp [containsKey]

end HeaderMap

/-- `Request`, with some type of URIs and one of bodies. -/
structure Request (U B : Type) where
  method : Method
  uri : U
  headers : HeaderMap
  body : B

/-- `Response`. -/
structure Response (B : Type) where
  status : ℕ
  headers : HeaderMap
  body : B

end WeaveAuth
