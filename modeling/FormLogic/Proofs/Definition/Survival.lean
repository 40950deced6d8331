import FormLogic.Proofs.Definition.Roundtrip

namespace FormLogic

namespace Field

end Field

namespace Document

end Document

end FormLogic
