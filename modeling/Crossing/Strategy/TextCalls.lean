import Crossing.Strategy.Holder
import Crossing.Strategy.Pool
import Crossing.Text.Transcode

/-!
# Strategies on texts

One text crosses the boundary in both directions. The caller has it as UTF-8 and as UTF-16 ended by
a zero. The strategies differ in which form crosses, who converts it, and who owns the memory it
lands in.
-/

namespace Crossing.Strategy

open Boundary
open Step

/-- The holder of the strategies on one text. -/
structure TextCalls where
  text : String
  rounds : UInt64
  pool : Pool
  sink : Sink := {}

instance : Holder TextCalls where
  rounds := TextCalls.rounds
  sink := TextCalls.sink
  setSink h s := { h with sink := s }

namespace TextCalls

/-- A holder for a text, with scratch buffers of a capacity. -/
def create (text : String) (rounds : UInt64) (capacity : Nat) : TextCalls :=
  { text, rounds, pool := .ofCapacity capacity }

/-- The text in UTF-8. -/
def bytes (h : TextCalls) : List UInt8 := octetsOf h.text

/-- The text in UTF-16. -/
def units (h : TextCalls) : List UInt16 := Text.Utf16.encode h.text.toList

/-- The text in UTF-16, ended by a zero. -/
def terminatedUnits (h : TextCalls) : List UInt16 := h.units ++ [0]

/-- The number of units. -/
def length (h : TextCalls) : Nat := h.units.length

/-! ### Conversions -/

/-- The entry point that narrow texts are handed to. -/
def narrowEntry : String := "mb_string_param_byte_ptr"

/-- A text that cannot be handed over. -/
def unfit : Fault := ⟨narrowEntry, .invalidEncoding⟩

/-- The octets and a zero; the text must not have a zero itself. -/
def copied (h : TextCalls) : Except Fault (List UInt8) :=
  if h.bytes.contains 0 then .error unfit else .ok (h.bytes ++ [0])

/-- The units as ASCII, and a zero. -/
def asciiFresh (h : TextCalls) : List UInt8 := h.units.map Text.asciiOctet ++ [0]

/-- The units as ASCII and a zero, at the front of the pool. -/
def asciiPooled (h : TextCalls) : List UInt8 × Pool :=
  let room := h.length + 1
  let pool := h.pool.grow room
  let buffer := (Text.writeAscii h.units (pool.front room)).set h.length 0
  (buffer, pool.setFront buffer)

/-- The units as UTF-8, and a zero. -/
def utf8Fresh (h : TextCalls) : Except Fault (List UInt8) :=
  match Text.Utf16.decode? h.units with
  | some cs => .ok (Text.Utf8.encode cs ++ [0])
  | none => .error unfit

/-- The room that any text of this length needs in UTF-8, with its zero. -/
def utf8Room (h : TextCalls) : Nat := h.length * 3 + 1

/-- The units as UTF-8 and a zero, at the front of the pool. -/
def utf8Pooled (h : TextCalls) : Except Fault (List UInt8) × Pool :=
  let pool := h.pool.grow h.utf8Room
  let (written, buffer) := Text.writeTerminated h.units (pool.front h.utf8Room)
  (if written.isSome then .ok buffer else .error unfit, pool.setFront buffer)

/-- The size of the buffer on the stack. -/
def stackSize : Nat := 4096

/-- The size of a buffer that is on the stack if the text surely fits, else on the heap. -/
def stackRoom (h : TextCalls) : Nat := if h.length * 3 < stackSize then stackSize else h.utf8Room

/-- The units as UTF-8 and a zero, in a buffer for one call. -/
def utf8Stack (h : TextCalls) : Except Fault (List UInt8) :=
  let (written, buffer) := Text.writeTerminated h.units (List.replicate h.stackRoom 0)
  if written.isSome then .ok buffer else .error unfit

/-! ### Texts as parameters -/

variable {S C P N : Type}

/-- Steps of this holder. -/
abbrev Task (S C P : Type) : Type → Type := Step TextCalls (World S C P)

/-- Hands something over to an entry point, which only looks at it unless another one is given. -/
def handOver {α : Type} (entryPoint : String) (make : TextCalls → α)
    (take : α → Call N Unit := consume) : Step TextCalls N UInt64 :=
  eachRound do call entryPoint (take (make (← holder)))

/-- Hands over octets that may not be there. -/
def handOverNarrow (make : TextCalls → Except Fault (List UInt8))
    (take : List UInt8 → Call N Unit := consume) : Step TextCalls N UInt64 :=
  eachRound do
    let bs ← ofExcept (make (← holder))
    call narrowEntry (take bs)

/-- Hands over octets that are in the pool. -/
def handOverPooled (make : TextCalls → Except Fault (List UInt8) × Pool)
    (take : List UInt8 → Call N Unit := consume) : Step TextCalls N UInt64 :=
  eachRound do
    let (bs, pool) := make (← holder)
    changeHolder fun h ↦ { h with pool }
    call narrowEntry (take (← ofExcept bs))

/-- Has the native side own a copy each round, and keeps the size of what it owns in the end. -/
def ownEachRound (entryPoint : String) (own : TextCalls → Except Fault (Call (Native S) Unit)) :
    Task S C P UInt64 := do
  let rounds ← eachRound do
    call entryPoint (World.onNative (← ofExcept (own (← holder))))
  keepLength (← cross get).native.ownedSize
  return rounds

/-- A new wide copy. -/
def paramUtf16Copy : Task S C P UInt64 := handOver "mb_string_param_utf16_ptr" terminatedUnits

/-- A new narrow copy. -/
def paramNarrowCopy (take : List UInt8 → Call N Unit := consume) : Step TextCalls N UInt64 :=
  handOverNarrow copied take

/-- A new narrow copy that the native side copies. -/
def paramNarrowCopyOwned : Task S C P UInt64 :=
  ownEachRound "mb_string_param_byte_ptr_create_owned" fun h ↦
    h.copied.map fun bs ↦ Native.ownTerminated (some bs)

/-- The octets themselves. -/
def paramUtf8Borrowed : Task S C P UInt64 := handOver "mb_string_param_byte_ptr_len" bytes

/-- The octets themselves, which the native side copies. -/
def paramUtf8BorrowedOwned : Task S C P UInt64 :=
  ownEachRound "mb_string_param_byte_ptr_len_create_owned" fun h ↦
    .ok (Native.ownNarrow (some h.bytes))

/-- The units themselves. -/
def paramUtf16Borrowed : Task S C P UInt64 := handOver "mb_string_param_utf16_ptr" terminatedUnits

/-- The units themselves, which the native side copies. -/
def paramUtf16BorrowedOwnedWide : Task S C P UInt64 :=
  ownEachRound "mb_string_param_utf16_ptr_len_create_owned_utf16" fun h ↦
    .ok (Native.ownWide (some h.units))

/-- The units themselves, which the native side copies as UTF-8. -/
def paramUtf16BorrowedOwnedNarrow : Task S C P UInt64 :=
  ownEachRound "mb_string_param_utf16_ptr_len_create_owned_narrow" fun h ↦
    .ok (Native.ownTranscoded (some h.units))

/-- ASCII in new memory. -/
def paramToAsciiFresh (take : List UInt8 → Call N Unit := consume) : Step TextCalls N UInt64 :=
  handOver narrowEntry asciiFresh take

/-- ASCII in the pool. -/
def paramToAsciiPooled (take : List UInt8 → Call N Unit := consume) : Step TextCalls N UInt64 :=
  handOverPooled (fun h ↦ (.ok h.asciiPooled.1, h.asciiPooled.2)) take

/-- UTF-8 in new memory. -/
def paramToUtf8Fresh (take : List UInt8 → Call N Unit := consume) : Step TextCalls N UInt64 :=
  handOverNarrow utf8Fresh take

/-- UTF-8 in the pool. -/
def paramToUtf8Pooled (take : List UInt8 → Call N Unit := consume) : Step TextCalls N UInt64 :=
  handOverPooled utf8Pooled take

/-- UTF-8 on the stack. -/
def paramToUtf8Stack (take : List UInt8 → Call N Unit := consume) : Step TextCalls N UInt64 :=
  handOverNarrow utf8Stack take

/-! ### Texts that come back -/

/-- Stores the text of the holder as the one that comes back. -/
def install : Task S C P Unit := do
  call "mb_set_test_string" (World.onNative (Native.setTestString (some (.own (← holder).bytes))))

/-- Gets the text back each round and keeps its size. -/
def getBack {α : Type} (entryPoint : String) (receive : Task S C P (Span α))
    (frees : Place → Bool) (size? : List α → Option Nat) : Task S C P UInt64 := do
  install
  eachRound do keepLength (← takeOver entryPoint frees (← receive) size?)

/-- In a new narrow buffer. -/
def returnNarrowAlloc : Task S C P UInt64 :=
  let entryPoint := "mb_string_return_alloc_narrow"
  getBack entryPoint (call entryPoint World.allocNarrow) whenMade fun bs ↦
    narrowSize? (untilZero bs)

/-- In a new wide buffer. -/
def returnUtf16Alloc : Task S C P UInt64 :=
  let entryPoint := "mb_string_return_alloc_utf16"
  getBack entryPoint (call entryPoint World.allocWide) whenMade fun us ↦ wideSize? (untilZero us)

/-- Lent as octets. -/
def returnBytePtr : Task S C P UInt64 :=
  let entryPoint := "mb_string_return_byte_ptr"
  getBack entryPoint (call entryPoint (World.onNative (Native.lendNarrow true true))) whenLent
    narrowSize?

/-- Lent as units. -/
def returnUtf16Ptr : Task S C P UInt64 :=
  let entryPoint := "mb_string_return_utf16_ptr"
  getBack entryPoint (call entryPoint (World.onNative (Native.lendWide true true))) whenLent
    wideSize?

/-- Receives the text in the units of the pool if it fits, else in a new buffer. -/
def fillPool (entryPoint : String) : Task S C P (Span UInt16) := do
  let units := (← holder).pool.units
  let (span, after) ← call entryPoint (World.fillOrAlloc (some units) units.length true true)
  changeHolder fun h ↦ { h with pool := h.pool.setUnits (after.getD units) }
  return span

/-- In the units of the pool, or in a new buffer. -/
def returnReuseBuffer : Task S C P UInt64 :=
  let entryPoint := "mb_string_return_reuse_buffer_utf16"
  getBack entryPoint (fillPool entryPoint) unlessOwn wideSize?

/-- In a new buffer. -/
def returnAllocateBuffer : Task S C P UInt64 :=
  let entryPoint := "mb_string_return_allocate_buffer_utf16"
  getBack entryPoint (call entryPoint (World.allocBuffer true true)) whenMade wideSize?

/-- The methods of the holder, in order. -/
def methods : List (String × Task S C P UInt64) :=
  [ ("test_param_string_utf16_copy", paramUtf16Copy),
    ("test_param_string_narrow_copy", paramNarrowCopy),
    ("test_param_string_narrow_copy_create_owned", paramNarrowCopyOwned),
    ("test_param_string_utf8_borrowed", paramUtf8Borrowed),
    ("test_param_string_utf8_borrowed_create_owned", paramUtf8BorrowedOwned),
    ("test_param_string_utf16_borrowed", paramUtf16Borrowed),
    ("test_param_string_utf16_borrowed_create_owned_utf16", paramUtf16BorrowedOwnedWide),
    ("test_param_string_utf16_borrowed_create_owned_narrow", paramUtf16BorrowedOwnedNarrow),
    ("test_param_string_to_ascii_fresh", paramToAsciiFresh),
    ("test_param_string_to_ascii_pooled", paramToAsciiPooled),
    ("test_param_string_to_utf8_fresh", paramToUtf8Fresh),
    ("test_param_string_to_utf8_pooled", paramToUtf8Pooled),
    ("test_param_string_to_utf8_stack", paramToUtf8Stack),
    ("test_return_string_narrow_alloc", returnNarrowAlloc),
    ("test_return_string_utf16_alloc", returnUtf16Alloc),
    ("test_return_string_byte_ptr", returnBytePtr),
    ("test_return_string_utf16_ptr", returnUtf16Ptr),
    ("test_return_string_reuse_buffer_utf16", returnReuseBuffer),
    ("test_return_string_allocate_buffer_utf16", returnAllocateBuffer) ]

end TextCalls

end Crossing.Strategy
