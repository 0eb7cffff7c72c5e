import NetPack.Proofs.Schema.Reading
import NetPack.Proofs.Schema.Stored

/-!
# A packed network is read back

The bytes of a network lay out its logical tables (`Network.depicts_root`), so a reader sees their
content, which is that of the network (`Network.ofBytes_toBytes`).
-/

namespace NetPack

open Schema
open Buffer (Fields Object Table)
open Buffer.Writer (sizeLimit)

theorem Network.fits_toObject (n : Network) : n.toObject.Fits := by
  obtain ⟨fs, ho, hc, -⟩ := model_stored n
  rw [ho]
  exact hc.fits

/-- The root table of the bytes of a network lays out a logical table that conforms to the format and
has the content of the network. -/
theorem Network.depicts_root (n : Network) (h : n.toBytes.length < sizeLimit) :
    ∃ fs, Depicts 0 (Table.root n.toBytes.toArray) fs ∧ Conforms .model fs ∧
      ModelContent.of fs = n.content := by
  obtain ⟨fs, ho, hc, hv⟩ := model_stored n
  obtain ⟨-, -, hlays⟩ := Buffer.Object.lays_toBytes n.fits_toObject h
  rw [ho] at hlays
  refine ⟨fs, ?_, hc, hv⟩
  rw [Depicts, Table.root, Network.toBytes, ho]
  exact hlays

theorem Network.content_ofBytes (n : Network) (h : n.toBytes.length < sizeLimit) :
    ModelContent.ofBytes n.toBytes = n.content := by
  obtain ⟨fs, hd, hc, hv⟩ := n.depicts_root h
  exact (ModelContent.of_eq hd hc.wellTyped).trans hv

/-- The reader of the bytes of a network sees its content, from which the network can be made again up
to what the format cannot tell apart. -/
theorem Network.ofBytes_toBytes (n : Network) (h : n.toBytes.length < sizeLimit) :
    ModelContent.ofBytes n.toBytes = n.content ∧
      (ModelContent.ofBytes n.toBytes).network? = some n.settled := by
  have hcontent := n.content_ofBytes h
  exact ⟨hcontent, by rw [hcontent, n.network?_content]⟩

/-- A network with a number that is not one, with both zeros, and with positions that lead nowhere. -/
def twoZeros : Network where
  nodes := [
    .constant ⟨"weights", [3], .float [⟨0x7fc00001⟩, ⟨0x80000000⟩, ⟨0⟩], rfl⟩,
    .value "in",
    .operator ⟨"leak", .leakyRelu, .leakyRelu ⟨0x80000000⟩, [1, 7], [4]⟩]
  inputs := [1]
  outputs := [4]

theorem length_twoZeros : twoZeros.toBytes.length < sizeLimit :=
  Nat.lt_of_le_of_lt twoZeros.toObject.length_toBytes_le (by decide)

theorem twoZeros_read : ModelContent.ofBytes twoZeros.toBytes = twoZeros.content ∧
    (ModelContent.ofBytes twoZeros.toBytes).network? = some twoZeros.settled :=
  twoZeros.ofBytes_toBytes length_twoZeros

end NetPack
