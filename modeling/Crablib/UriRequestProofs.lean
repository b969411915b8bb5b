import Crablib.Http.ClientRequest
import Crablib.RequestTextProofs
import Crablib.SocketProofs
import Crablib.UriProofs

/-! A request made from a URI, from the text of the URI to the parser of the server.
The path is decoded when the URI is read and written as it is, so it arrives only
when it has nothing in it that the server decodes or that ends it. -/
namespace Crablib.UriRequestProofs
open Http Scanner HeaderProofs HeaderTextProofs RequestTextProofs UriProofs SocketProofs

section Sending

variable {client after : ClientRequestSimple}

private theorem close_closed (c : ClientConnection) : c.close.isOpen = false := by
  have closed : (c.sock.close false).isOpen = false := close_isOpen_false c.sock.sock
  simp [ClientConnection.close, ClientConnection.isOpen, closed]

end Sending

section Paths

variable {p q : RequestParser}

variable {text rest : Bytes} {c : UInt8}

end Paths

section Arriving

/-- A printable character of ASCII that is no space and no `#`. -/
structure IsVisible (c : UInt8) : Prop where
  low : 33 ≤ c.toNat
  high : c.toNat ≤ 126
  anchor : c ≠ ch '#'

instance (c : UInt8) : Decidable (IsVisible c) :=
  decidable_of_iff (33 ≤ c.toNat ∧ c.toNat ≤ 126 ∧ c ≠ ch '#')
    ⟨fun h => ⟨h.1, h.2.1, h.2.2⟩, fun h => ⟨h.low, h.high, h.anchor⟩⟩

private theorem IsVisible.query {c : UInt8} (visible : IsVisible c) : IsQueryChar c := by
  have toNat : c.toNat ≤ 126 ∧ 33 ≤ c.toNat := ⟨visible.high, visible.low⟩
  have named : c ≠ 127 ∧ c ≠ 32 := by constructor <;> (rintro rfl; revert toNat; decide)
  refine ⟨?_, named.2, visible.anchor⟩
  simp only [isCtl, named.1, beq_eq_false_iff_ne, Bool.or_eq_false_iff, decide_eq_false_iff_not,
    ne_eq, not_false_eq_true, and_true]
  omega

variable {uri : Bytes} {u : URI}

end Arriving

end Crablib.UriRequestProofs
