/-! Go's `net.IP`: addresses as byte slices, in the 4-byte and the 16-byte
form. -/
namespace NetGraphz

/-- `net.IP`: nil, or the bytes of the slice. -/
abbrev NetIP := Option (List UInt8)

namespace NetIP

/-- The prefix that marks an IPv4 address in 16 bytes. -/
def v4InV6Prefix : List UInt8 := List.replicate 10 0 ++ [0xff, 0xff]

/-- `net.IP.To4`. -/
def to4 (ip : NetIP) : NetIP :=
  ip.bind fun bytes =>
    if bytes.length = 4 then some bytes
    else if bytes.length = 16 ∧ bytes.take 12 = v4InV6Prefix then some (bytes.drop 12)
    else none

theorem length_to4 {ip : NetIP} {bytes : List UInt8} (short : ip.to4 = some bytes) :
    bytes.length = 4 := by
  obtain ⟨whole, rfl, taken⟩ := Option.bind_eq_some_iff.mp short
  split at taken
  · rename_i four
    cases taken
    exact four
  · split at taken
    · rename_i mapped
      cases taken
      rw [List.length_drop, mapped.1]
    · cases taken

/-- `net.IP.To16`. -/
def to16 (ip : NetIP) : NetIP :=
  ip.bind fun bytes =>
    if bytes.length = 4 then some (v4InV6Prefix ++ bytes)
    else if bytes.length = 16 then some bytes
    else none

end NetIP

end NetGraphz
