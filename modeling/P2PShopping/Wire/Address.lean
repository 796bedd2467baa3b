import P2PShopping.Library.Decimal

/-! Socket addresses and the keys the server files sessions under. -/
namespace P2PShopping

/-- `sockaddr_in`: the four octets of `sin_addr` in network order, and the port
after `ntohs`. -/
structure SockaddrIn where
  octet₀ : UInt8
  octet₁ : UInt8
  octet₂ : UInt8
  octet₃ : UInt8
  port : UInt16
deriving DecidableEq

/-- The dotted decimal form of the octets. -/
def inetNtoa (a : SockaddrIn) : String :=
  a.octet₀.toNat.repr ++ ("." ++ (a.octet₁.toNat.repr ++ ("." ++
    (a.octet₂.toNat.repr ++ ("." ++ a.octet₃.toNat.repr)))))

/-- `ConcurrentServer` and `ServerCommandHandlers` each have one. -/
def getPeerIdentifier (a : SockaddrIn) : String :=
  inetNtoa a ++ (":" ++ a.port.toNat.repr)

/-- Two peers never share a key. -/
theorem getPeerIdentifier_inj {a b : SockaddrIn} (h : getPeerIdentifier a = getPeerIdentifier b) :
    a = b := by
  simp only [getPeerIdentifier, inetNtoa, String.append_assoc] at h
  obtain ⟨h₀, h⟩ := Decimal.repr_sep_inj (c := '.') (by decide) h
  obtain ⟨h₁, h⟩ := Decimal.repr_sep_inj (c := '.') (by decide) h
  obtain ⟨h₂, h⟩ := Decimal.repr_sep_inj (c := '.') (by decide) h
  obtain ⟨h₃, h⟩ := Decimal.repr_sep_inj (c := ':') (by decide) h
  cases a
  cases b
  simp only [SockaddrIn.mk.injEq]
  exact ⟨UInt8.toNat_inj.mp h₀, UInt8.toNat_inj.mp h₁, UInt8.toNat_inj.mp h₂,
    UInt8.toNat_inj.mp h₃, UInt16.toNat_inj.mp (Nat.repr_inj.mp h)⟩

@[simp] theorem getPeerIdentifier_eq_iff {a b : SockaddrIn} :
    getPeerIdentifier a = getPeerIdentifier b ↔ a = b :=
  ⟨getPeerIdentifier_inj, congrArg getPeerIdentifier⟩

/-- A peer on the server's own machine. -/
def loopback (port : UInt16) : SockaddrIn := ⟨127, 0, 0, 1, port⟩

end P2PShopping
